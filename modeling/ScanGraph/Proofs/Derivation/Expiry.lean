/-
The cache as a map whose entries age.

All handles of a cache share its entries and counts, so a history is one list of
calls, whichever handle each call went through.  An entry is there exactly if its
output is the latest that was kept under its fingerprint and no call since has
dropped it (`get?_run`).  What drops an entry is a clear, an invalidation of its
rule, or a request for any fingerprint of its rule with an age that the entry has
reached: entries go when their rule is asked for, not when they come of age.

`run_timed` says what a request finds after any history, what it takes away, and
what the counts come to.  Times need not ascend for it: where a request comes
before the insertion it looks at, the age of the entry is nothing.

## What is proved

For every list of calls on an empty cache, at any times: what a request finds (`Lasts`,
and an age below the one asked for), that it takes nothing away from other rules, that
hits and misses add up to the requests, and that evictions are the entries which
requests took away.

## What is not modelled

Time is a number, the same for all handles, and each call is made at one moment.  Counts
are numbers without bound.  Locks do not show: a call is one step, and what threads that
call at once can see is some order of their calls.  Nothing is said about what the
entries hold; that is `Derivation.Run`.
-/
import Mathlib.Data.List.Induction
import ScanGraph.Proofs.Derivation.Isolation

namespace ScanGraph

/-! ## Keys in ascending order -/

namespace Table

variable {κ α : Type} [DecidableEq κ] [LT κ] [Std.Irrefl (fun a b : κ => a < b)]

theorem Ascending.filter_key {t : Table κ α} (h : t.Ascending) (k : κ) :
    t.entries.filter (fun e => decide (e.1 = k)) = ((t.get? k).map (fun v => (k, v))).toList := by
  obtain ⟨l⟩ := t
  change l.filter _ = ((find? k l).map _).toList
  induction l with
  | nil => rfl
  | cons e rest ih =>
    obtain ⟨a, v⟩ := e
    obtain ⟨hhead, hrest⟩ := List.pairwise_cons.1 h
    by_cases hka : k = a
    · subst hka
      have hlater : rest.filter (fun e => decide (e.1 = k)) = [] := by
        refine List.filter_eq_nil_iff.2 (fun e he => ?_)
        have hlt := hhead e he
        intro heq
        rw [of_decide_eq_true heq] at hlt
        exact Std.Irrefl.irrefl (r := fun a b : κ => a < b) k hlt
      simp [find?, hlater]
    · simpa [find?, hka, Ne.symm hka] using ih hrest

end Table

namespace Cache

/-! ## Calls and histories -/

/-- A call to a cache, with the time at which it was made. -/
inductive Call
  | insert (rule key : String) (madeAt : Nat) (output : List Snapshot)
  | get (rule key : String) (now ttl : Nat)
  | invalidate (rule : String)
  | clear

namespace Call

def after (c : Cache) : Call → Cache
  | insert rule key madeAt output => c.insert rule key madeAt output
  | get rule key now ttl => (c.get rule key now ttl).1
  | invalidate rule => c.invalidate rule
  | clear => c.clear

def isGet : Call → Bool
  | get .. => true
  | _ => false

/-- The call keeps an output under a fingerprint of a rule. -/
def Inserts (rule key : String) : Call → Prop
  | insert r k _ _ => r = rule ∧ k = key
  | _ => False

/-- The call drops the entries of a rule that were made at a time. -/
def Drops (rule : String) (madeAt : Nat) : Call → Prop
  | insert .. => False
  | get r _ now ttl => r = rule ∧ ttl ≤ now - madeAt
  | invalidate r => r = rule
  | clear => True

end Call

/-- The cache after calls to an empty one. -/
def run (calls : List Call) : Cache :=
  calls.foldl Call.after .empty

/-- The entry is of the latest output kept under a fingerprint of a rule, and no call since has
dropped it. -/
def Lasts (calls : List Call) (rule key : String) (entry : CacheEntry) : Prop :=
  ∃ before since, calls = before ++ .insert rule key entry.madeAt entry.output :: since ∧
    (∀ x ∈ since, ¬ x.Inserts rule key) ∧ ∀ x ∈ since, ¬ x.Drops rule entry.madeAt

/-- Every entry, with its rule and its fingerprint. -/
def held (c : Cache) : List (String × String × CacheEntry) :=
  c.groups.entries.flatMap (fun g => g.2.entries.map (fun e => (g.1, e)))

/-- The entries that a request takes away; other calls are not counted. -/
def removed (c : Cache) (x : Call) : List (String × String × CacheEntry) :=
  if x.isGet then c.held.filter (fun e => decide (e ∉ (x.after c).held)) else []

/-- The entries that the requests among calls take away. -/
def removedBy (c : Cache) : List Call → List (String × String × CacheEntry)
  | [] => []
  | x :: calls => c.removed x ++ removedBy (x.after c) calls

theorem run_concat (calls : List Call) (x : Call) : run (calls ++ [x]) = x.after (run calls) := by
  simp [run]

/-! ## Rules and fingerprints in order -/

/-- Rules are in order, and so are the fingerprints of each. -/
structure Ordered (c : Cache) : Prop where
  rules : c.groups.Ascending
  keys : ∀ rule, (c.group rule).Ascending

section Groups

variable {c : Cache} (rule key : String) (now ttl : Nat)

theorem group_sweep (other : String) : (c.sweep rule now ttl).group other
    = if other = rule then young now ttl (c.group rule) else c.group other := by
  unfold group
  rw [get?_groups_sweep]
  split
  · cases c.groups.get? rule <;> rfl
  · rfl

theorem group_get (other : String) : (c.get rule key now ttl).1.group other
    = if other = rule then young now ttl (c.group rule) else c.group other := by
  rw [← group_sweep]
  unfold get
  dsimp only
  split <;> rfl

theorem group_insert (output : List Snapshot) (other : String) :
    (c.insert rule key now output).group other
      = if other = rule then (c.group rule).insert key ⟨output, now⟩ else c.group other := by
  unfold group
  rw [get?_groups_insert]
  split <;> rfl

theorem group_invalidate (other : String) :
    (c.invalidate rule).group other = if other = rule then .empty else c.group other := by
  unfold group invalidate
  split
  · rename_i heq
    rw [heq, Table.get?_erase_self]
    rfl
  · rename_i hne
    rw [Table.get?_erase_of_ne _ hne]

end Groups

theorem ordered_empty : Cache.empty.Ordered where
  rules := Table.ascending_empty
  keys _ := Table.ascending_empty

theorem Ordered.sweep {c : Cache} (h : c.Ordered) (rule : String) (now ttl : Nat) :
    (c.sweep rule now ttl).groups.Ascending := by
  unfold Cache.sweep
  split
  · exact h.rules
  · exact h.rules.insert _ _

theorem Ordered.after {c : Cache} (h : c.Ordered) (x : Call) : (x.after c).Ordered := by
  cases x with
  | insert rule key madeAt output =>
    refine ⟨h.rules.insert _ _, fun other => ?_⟩
    simp only [Call.after, group_insert]
    split
    · exact (h.keys rule).insert _ _
    · exact h.keys other
  | get rule key now ttl =>
    refine ⟨?_, fun other => ?_⟩
    · have hsweep := h.sweep rule now ttl
      unfold Call.after get
      dsimp only
      split <;> exact hsweep
    · simp only [Call.after, group_get]
      split
      · exact List.Pairwise.filter _ (h.keys rule)
      · exact h.keys other
  | invalidate rule =>
    refine ⟨List.Pairwise.filter _ h.rules, fun other => ?_⟩
    simp only [Call.after, group_invalidate]
    split
    · exact Table.ascending_empty
    · exact h.keys other
  | clear => exact ⟨ordered_empty.rules, ordered_empty.keys⟩

theorem ordered_run (calls : List Call) : (run calls).Ordered := by
  induction calls using List.reverseRecOn with
  | nil => exact ordered_empty
  | append_singleton calls x ih =>
    rw [run_concat]
    exact ih.after x

/-! ## What is there -/

/-- What one call does to what is there: it keeps an output, or it lets an entry last. -/
theorem Ordered.get?_after {c : Cache} (h : c.Ordered) (x : Call) {rule key : String}
    {entry : CacheEntry} : ((x.after c).group rule).get? key = some entry ↔
      x = .insert rule key entry.madeAt entry.output ∨
        (c.group rule).get? key = some entry ∧ ¬ x.Inserts rule key ∧
          ¬ x.Drops rule entry.madeAt := by
  obtain ⟨output, madeAt⟩ := entry
  cases x with
  | insert r k t o =>
    simp only [Call.after, group_insert, Call.Inserts, Call.Drops, Call.insert.injEq,
      not_false_eq_true, and_true]
    by_cases hr : rule = r
    · subst hr
      by_cases hk : key = k
      · subst hk
        simp [and_comm]
      · simp [Table.get?_insert_of_ne _ _ hk, Ne.symm hk]
    · simp [hr, Ne.symm hr]
  | get r k now ttl =>
    simp only [Call.after, group_get, Call.Inserts, Call.Drops, reduceCtorEq, false_or,
      not_false_eq_true, true_and]
    by_cases hr : rule = r
    · subst hr
      simp [young, (h.keys rule).get?_filter, Option.filter_eq_some_iff]
    · simp [hr, Ne.symm hr]
  | invalidate r =>
    simp only [Call.after, group_invalidate, Call.Inserts, Call.Drops, reduceCtorEq, false_or,
      not_false_eq_true, true_and]
    by_cases hr : rule = r
    · simp [hr]
    · simp [hr, Ne.symm hr]
  | clear => simp [Call.after, Call.Drops, Cache.clear, group]

theorem lasts_concat {calls : List Call} {x : Call} {rule key : String} {entry : CacheEntry} :
    Lasts (calls ++ [x]) rule key entry ↔ x = .insert rule key entry.madeAt entry.output ∨
      Lasts calls rule key entry ∧ ¬ x.Inserts rule key ∧ ¬ x.Drops rule entry.madeAt := by
  constructor
  · rintro ⟨before, since, hcalls, hinserts, hdrops⟩
    induction since using List.reverseRecOn with
    | nil =>
      obtain ⟨-, hx⟩ := List.append_inj' hcalls rfl
      exact .inl (List.cons.inj hx).1
    | append_singleton since y _ =>
      rw [← List.cons_append, ← List.append_assoc] at hcalls
      obtain ⟨hbefore, hx⟩ := List.append_inj' hcalls rfl
      obtain rfl : x = y := (List.cons.inj hx).1
      rw [List.forall_mem_append] at hinserts hdrops
      exact .inr ⟨⟨before, since, hbefore, hinserts.1, hdrops.1⟩,
        hinserts.2 x List.mem_cons_self, hdrops.2 x List.mem_cons_self⟩
  · rintro (rfl | ⟨⟨before, since, rfl, hinserts, hdrops⟩, hx, hx'⟩)
    · exact ⟨calls, [], rfl, List.forall_mem_nil _, List.forall_mem_nil _⟩
    · refine ⟨before, since ++ [x], by simp, ?_, ?_⟩
      · exact List.forall_mem_append.2 ⟨hinserts, List.forall_mem_singleton.2 hx⟩
      · exact List.forall_mem_append.2 ⟨hdrops, List.forall_mem_singleton.2 hx'⟩

theorem get?_run (calls : List Call) {rule key : String} {entry : CacheEntry} :
    ((run calls).group rule).get? key = some entry ↔ Lasts calls rule key entry := by
  induction calls using List.reverseRecOn with
  | nil =>
    refine ⟨fun h => absurd h (Option.some_ne_none _).symm, ?_⟩
    rintro ⟨before, since, hcalls, -⟩
    exact absurd hcalls.symm (List.append_ne_nil_of_right_ne_nil _ (List.cons_ne_nil _ _))
  | append_singleton calls x ih =>
    rw [run_concat, (ordered_run calls).get?_after, ih, lasts_concat]

/-! ## What a request finds -/

/-- A request finds the entry that is there and has not reached the age. -/
theorem Ordered.get_eq_some_iff {c : Cache} (h : c.Ordered) {rule key : String} {now ttl : Nat}
    {output : List Snapshot} : (c.get rule key now ttl).2 = some output ↔
      ∃ madeAt, (c.group rule).get? key = some ⟨output, madeAt⟩ ∧ now - madeAt < ttl := by
  have hfound : (c.get rule key now ttl).2
      = ((young now ttl (c.group rule)).get? key).map CacheEntry.output := by
    have hgroup := group_sweep (c := c) rule now ttl rule
    rw [if_pos rfl] at hgroup
    unfold get
    dsimp only
    rw [hgroup]
    split <;> simp_all
  rw [hfound, young, (h.keys rule).get?_filter]
  simp only [Option.map_eq_some_iff, Option.filter_eq_some_iff, decide_eq_true_eq]
  constructor
  · rintro ⟨⟨_, madeAt⟩, ⟨hentry, hyoung⟩, rfl⟩
    exact ⟨madeAt, hentry, hyoung⟩
  · rintro ⟨madeAt, hentry, hyoung⟩
    exact ⟨_, ⟨hentry, hyoung⟩, rfl⟩

/-! ## What a request takes away -/

section Held

variable {c : Cache}

theorem Ordered.mem_held (h : c.Ordered) {rule key : String} {entry : CacheEntry} :
    (rule, key, entry) ∈ c.held ↔ (c.group rule).get? key = some entry := by
  have hkeys := h.keys rule
  simp only [held, List.mem_flatMap, List.mem_map, Prod.mk.injEq, Prod.exists, group] at hkeys ⊢
  constructor
  · rintro ⟨_, g, hg, k, e, he, rfl, rfl, rfl⟩
    rw [h.rules.mem_entries_iff] at hg
    rw [hg] at hkeys ⊢
    exact hkeys.mem_entries_iff.1 he
  · intro hentry
    cases hg : c.groups.get? rule with
    | none =>
      rw [hg] at hentry
      cases hentry
    | some g =>
      rw [hg] at hkeys hentry
      exact ⟨rule, g, h.rules.mem_entries_iff.2 hg, key, entry, hkeys.mem_entries_iff.2 hentry,
        rfl, rfl, rfl⟩

/-- A request leaves what is of another rule, and of its rule what has not reached the age. -/
theorem Ordered.mem_held_get (h : c.Ordered) {rule key : String} {now ttl : Nat}
    {e : String × String × CacheEntry} : e ∈ (c.get rule key now ttl).1.held ↔
      e ∈ c.held ∧ (e.1 = rule → now - e.2.2.madeAt < ttl) := by
  obtain ⟨r, k, entry⟩ := e
  show (r, k, entry) ∈ ((Call.get rule key now ttl).after c).held ↔ _
  rw [(h.after _).mem_held, h.mem_held, h.get?_after]
  simp [Call.Inserts, Call.Drops, eq_comm]

theorem Ordered.filter_held (h : c.Ordered) (rule : String) :
    c.held.filter (fun e => decide (e.1 = rule))
      = (c.group rule).entries.map (fun e => (rule, e)) := by
  have hgroups : ∀ l : List (String × Table String CacheEntry),
      (l.flatMap (fun g => g.2.entries.map (fun e => (g.1, e)))).filter
          (fun e => decide (e.1 = rule))
        = (l.filter (fun g => decide (g.1 = rule))).flatMap
            (fun g => g.2.entries.map (fun e => (g.1, e))) := by
    intro l
    induction l with
    | nil => rfl
    | cons g l ih =>
      rw [List.flatMap_cons, List.filter_append, ih, List.filter_map]
      by_cases hg : g.1 = rule <;> simp [hg, Function.comp_def]
  rw [held, hgroups, h.rules.filter_key, group]
  cases c.groups.get? rule <;> simp [Table.empty]

theorem Ordered.evictions_get (h : c.Ordered) (rule key : String) (now ttl : Nat) :
    (c.get rule key now ttl).1.evictions
      = c.evictions + (c.removed (.get rule key now ttl)).length := by
  have hcount : (c.get rule key now ttl).1.evictions
      = c.evictions + ((c.group rule).size - (young now ttl (c.group rule)).size) := by
    have hsweep : (c.sweep rule now ttl).evictions
        = c.evictions + ((c.group rule).size - (young now ttl (c.group rule)).size) := by
      unfold Cache.sweep group
      cases c.groups.get? rule <;> rfl
    rw [← hsweep]
    unfold get
    dsimp only
    split <;> rfl
  have hremoved : c.removed (.get rule key now ttl)
      = ((c.held.filter (fun e => decide (e.1 = rule))).filter
          (fun e => ! decide (now - e.2.2.madeAt < ttl))) := by
    rw [List.filter_filter]
    refine List.filter_congr (fun e he => ?_)
    rw [Bool.and_comm]
    simp [Call.after, h.mem_held_get, he, ← decide_not]
  have hsplit := List.length_eq_length_filter_add (l := (c.group rule).entries)
    (fun e => decide (now - e.2.madeAt < ttl))
  rw [hcount, hremoved, h.filter_held, List.filter_map, List.length_map]
  simp only [young, Table.filter, Table.size, Function.comp_def]
  omega

end Held

/-! ## Counts -/

theorem asked_after (c : Cache) (x : Call) :
    (x.after c).hits + (x.after c).misses = c.hits + c.misses + x.isGet.toNat := by
  cases x with
  | get rule key now ttl =>
    have hsweep : (c.sweep rule now ttl).hits = c.hits ∧
        (c.sweep rule now ttl).misses = c.misses := by
      unfold sweep
      split <;> exact ⟨rfl, rfl⟩
    simp only [Call.after, get, Call.isGet, Bool.toNat_true]
    split <;> simp only [hsweep] <;> omega
  | _ => rfl

theorem Ordered.evictions_after {c : Cache} (h : c.Ordered) (x : Call) :
    (x.after c).evictions = c.evictions + (c.removed x).length := by
  cases x with
  | get rule key now ttl => exact h.evictions_get rule key now ttl
  | _ => rfl

theorem asked_run (calls : List Call) :
    (run calls).hits + (run calls).misses = calls.countP Call.isGet := by
  induction calls using List.reverseRecOn with
  | nil => rfl
  | append_singleton calls x ih =>
    rw [run_concat, asked_after, ih, List.countP_append, List.countP_singleton]
    cases x.isGet <;> rfl

theorem removedBy_concat (c : Cache) (calls : List Call) (x : Call) :
    c.removedBy (calls ++ [x]) = c.removedBy calls ++ (calls.foldl Call.after c).removed x := by
  induction calls generalizing c with
  | nil => simp [removedBy]
  | cons y calls ih => simp [removedBy, ih]

theorem evictions_run (calls : List Call) :
    (run calls).evictions = (Cache.empty.removedBy calls).length := by
  induction calls using List.reverseRecOn with
  | nil => rfl
  | append_singleton calls x ih =>
    rw [run_concat, (ordered_run calls).evictions_after, ih, removedBy_concat, List.length_append]
    rfl

/-! ## Requests after any history -/

/-- After any calls, a request finds an output exactly if it is the latest that was kept under its
fingerprint, no call since has dropped it and its age is below the given one.  It leaves the entries
of other rules.  Hits and misses count the requests, and evictions what these took away. -/
theorem run_timed (calls : List Call) (rule key : String) (now ttl : Nat) :
    (∀ output, ((run calls).get rule key now ttl).2 = some output ↔
      ∃ madeAt, Lasts calls rule key ⟨output, madeAt⟩ ∧ now - madeAt < ttl) ∧
    (∀ e ∈ (run calls).held, e.1 ≠ rule → e ∈ ((run calls).get rule key now ttl).1.held) ∧
    (run calls).hits + (run calls).misses = calls.countP Call.isGet ∧
    (run calls).evictions = (Cache.empty.removedBy calls).length := by
  have hordered := ordered_run calls
  refine ⟨fun output => ?_, fun e he hother => ?_, asked_run calls, evictions_run calls⟩
  · simp only [hordered.get_eq_some_iff, get?_run]
  · exact hordered.mem_held_get.2 ⟨he, fun heq => absurd heq hother⟩

end Cache

end ScanGraph
