/-
Declared profiles over whole runs.

A run is a list of operations on the empty store; one that is refused leaves the
store as it is.  Beside the store goes the list of all profiles that were merged.
The declared profile of a reference is then the last declared one merged for it,
whatever observations brought in between and however often clearance was
recalculated; only a recalculation ever lowers the level of a reference that was
never declared.  Main statement: `declared_over_runs`.

## What is asked

Nothing: operations may come in any order and at any times, and the store may be
switched off and on between them.  It begins empty.

## What is proved

For every list of operations and every reference: it is declared at the level of the
last declared profile that was merged for it; having one once, it has one after any
further operations, at the level of the last; and if none was ever merged for it, its
level goes down in no operation but a recalculation.

## What is not

What a recalculation makes of levels that were never declared is `Clearance.Renewal`.
Which of several profiles in one observation comes last is their order in it; an
observed object without a profile merges an empty one, which replaces none.
-/
import ScanGraph.Proofs.Clearance.Renewal
import ScanGraph.Proofs.Store.Again
import ScanGraph.Proofs.Store.Lasting

namespace ScanGraph

namespace Store

/-- A call to a store with what it is given. -/
inductive Operation
  | insert (o : Snapshot) (t : Instant)
  | observe (o : Observation)
  | declare (r : Reference) (level : Level) (t : Instant)
  | recalculate (t : Instant)
  | switch (offline : Bool)

namespace Operation

/-- The store that an operation leads to, or why it is refused. -/
def perform (s : Store) : Operation → Except StoreError Store
  | .insert o t => (s.insert o t).map Prod.fst
  | .observe o => (s.observe o).map Prod.fst
  | .declare r level t => s.declare r level t
  | .recalculate t => (s.recalculateProfiles t).map Prod.fst
  | .switch offline => .ok { s with offline := offline }

/-- The profiles that an operation merges, in order.  An observed object without a profile brings
an empty one. -/
def profiles : Operation → List Profile
  | .insert o _ => o.profile.toList
  | .observe o => o.result.map (fun x => x.profile.getD (.empty x.reference))
  | .declare r level _ => [.declared r level]
  | .recalculate _ | .switch _ => []

/-- An operation computes clearance anew. -/
def Recalculates : Operation → Prop
  | .recalculate _ => True
  | _ => False

end Operation

/-- The store after an operation; a refused one changes nothing. -/
def after (s : Store) (op : Operation) : Store :=
  match op.perform s with
  | .ok s' => s'
  | .error _ => s

/-- The profiles that an operation merges in a store; a refused one merges none. -/
def mergedBy (s : Store) (op : Operation) : List Profile :=
  match op.perform s with
  | .ok _ => op.profiles
  | .error _ => []

def run (s : Store) (ops : List Operation) : Store :=
  ops.foldl after s

/-- The profiles that some operations merge, in order. -/
def history (s : Store) : List Operation → List Profile
  | [] => []
  | op :: ops => s.mergedBy op ++ (s.after op).history ops

def lastDeclared? (r : Reference) (ps : List Profile) : Option Profile :=
  ps.reverse.find? (fun p => decide (p.reference = r) && p.isDeclared)

section Runs

variable {s : Store} {ops more : List Operation}

theorem run_append (s : Store) (ops more : List Operation) :
    s.run (ops ++ more) = (s.run ops).run more :=
  List.foldl_append

theorem history_append (s : Store) (ops more : List Operation) :
    s.history (ops ++ more) = s.history ops ++ (s.run ops).history more := by
  induction ops generalizing s with
  | nil => rfl
  | cons op ops ih =>
    have hcons : s.history (op :: ops ++ more)
        = s.mergedBy op ++ (s.after op).history (ops ++ more) := rfl
    rw [hcons, ih, ← List.append_assoc]
    rfl

theorem map_eq_ok_iff {ε α β : Type} {f : α → β} {x : Except ε α} {b : β} :
    x.map f = .ok b ↔ ∃ a, x = .ok a ∧ f a = b := by
  cases x <;> simp [Except.map]

theorem call_of_perform {op : Operation} {s' : Store} (h : op.perform s = .ok s') : s.Call s' := by
  cases op with
  | insert o t =>
    obtain ⟨⟨s₁, c⟩, hcall, rfl⟩ := map_eq_ok_iff.1 h
    exact .insert hcall
  | observe o =>
    obtain ⟨⟨s₁, cs⟩, hcall, rfl⟩ := map_eq_ok_iff.1 h
    exact .observe hcall
  | declare r level t => exact .declare h
  | recalculate t =>
    obtain ⟨⟨s₁, rs⟩, hcall, rfl⟩ := map_eq_ok_iff.1 h
    exact .recalculate hcall
  | switch offline =>
    cases h
    exact .switch offline

theorem Reachable.after (hs : s.Reachable) (op : Operation) : (s.after op).Reachable := by
  unfold Store.after
  split
  · rename_i s' hperform
    exact hs.call (call_of_perform hperform)
  · exact hs

end Runs

/-! ## Merging in order -/

section Merging

variable {p : Profile} {ps qs : List Profile} {present : Option Profile} {r : Reference}

theorem lastDeclared?_append (r : Reference) (ps qs : List Profile) :
    lastDeclared? r (ps ++ qs) = (lastDeclared? r qs).or (lastDeclared? r ps) := by
  unfold lastDeclared?
  rw [List.reverse_append, List.find?_append]

theorem filter_merged (present : Option Profile) (p : Profile) :
    (merged present p).filter Profile.isDeclared
      = if p.isDeclared then some p else present.filter Profile.isDeclared := by
  by_cases hp : p.isDeclared = true
  · rw [merged_of_declared hp, if_pos hp, Option.filter_some, if_pos hp]
  · rw [if_neg hp]
    unfold merged
    split
    · rename_i hreplaces
      -- an undeclared profile takes the place of undeclared ones only
      rw [Option.filter_some, if_neg hp]
      cases present with
      | none => rfl
      | some o =>
        have ho := (level_lt_of_replaces (Bool.eq_false_iff.2 hp) hreplaces).1
        rw [Option.filter_some, if_neg (Bool.eq_false_iff.1 ho)]
    · rfl

/-- After some profiles were merged the declared one is the last of those, if there is any. -/
theorem filter_foldl_merged (ps : List Profile) (present : Option Profile) :
    (ps.foldl merged present).filter Profile.isDeclared
      = (ps.reverse.find? Profile.isDeclared).or (present.filter Profile.isDeclared) := by
  induction ps using List.reverseRecOn with
  | nil => rfl
  | append_singleton ps p ih =>
    rw [List.foldl_concat, filter_merged, List.reverse_concat, List.find?_cons]
    cases hp : p.isDeclared with
    | true => rfl
    | false => exact ih

theorem level_le_merged (hp : p.isDeclared = false) :
    (present.getD (.empty r)).level ≤ ((merged present p).getD (.empty r)).level := by
  unfold merged
  split
  · rename_i hreplaces
    cases present with
    | none => exact Level.l0_le _
    | some o => exact Nat.le_of_lt (level_lt_of_replaces hp hreplaces).2
  · exact Level.le_refl _

theorem level_le_foldl_merged (h : ∀ p ∈ ps, p.isDeclared = false) :
    (present.getD (.empty r)).level ≤ ((ps.foldl merged present).getD (.empty r)).level := by
  induction ps generalizing present with
  | nil => exact Level.le_refl _
  | cons p ps ih =>
    exact Level.le_trans (level_le_merged (h p List.mem_cons_self))
      (ih (fun q hq => h q (List.mem_cons_of_mem _ hq)))

theorem lastDeclared?_eq_none_iff :
    lastDeclared? r ps = none ↔ ∀ p ∈ ps, p.reference = r → p.isDeclared = false := by
  simp [lastDeclared?, List.find?_eq_none]

end Merging

/-! ## One operation -/

section Step

variable {s s' : Store} {op : Operation} {r : Reference}

/-- The declared profile of a reference, if it has one. -/
def declared? (s : Store) (r : Reference) : Option Profile :=
  (s.profiles.get? r).filter Profile.isDeclared

theorem declared?_eq_some_iff {p : Profile} :
    s.declared? r = some p ↔ s.profiles.get? r = some p ∧ p.isDeclared = true :=
  Option.filter_eq_some_iff

theorem get?_put (s : Store) (o : Snapshot) (t : Instant) (r : Reference) :
    (s.put o t).1.profiles.get? r
      = (o.profile.toList.filter (fun p => decide (p.reference = r))).foldl merged
          (s.profiles.get? r) := by
  obtain ⟨e, profile, time⟩ := o
  cases profile with
  | none => exact congrArg (·.get? r) (write_profiles s e t)
  | some p =>
    have hput : (s.put ⟨e, some p, time⟩ t).1 = (s.write e t).1.mergeProfile p := rfl
    rw [hput, get?_mergeProfile, write_profiles]
    by_cases hr : p.reference = r <;> simp [hr]

/-- Except for a recalculation, an operation merges its profiles and does nothing else to them. -/
theorem get?_profiles_of_perform (h : op.perform s = .ok s') (hop : ¬ op.Recalculates)
    (r : Reference) :
    s'.profiles.get? r
      = (op.profiles.filter (fun p => decide (p.reference = r))).foldl merged
          (s.profiles.get? r) := by
  cases op with
  | insert o t =>
    obtain ⟨⟨s₁, c⟩, hcall, rfl⟩ := map_eq_ok_iff.1 h
    obtain ⟨-, hput⟩ := guarded_eq_ok_iff.1 hcall
    have hs' : (s.put o t).1 = s₁ := congrArg Prod.fst (Except.ok.inj hput)
    exact hs' ▸ get?_put s o t r
  | observe o =>
    obtain ⟨⟨s₁, cs⟩, hcall, rfl⟩ := map_eq_ok_iff.1 h
    obtain ⟨-, -, hcommit⟩ := observe_eq_ok_iff.1 hcall
    have hs' : (s.commit o).1 = s₁ := congrArg Prod.fst hcommit
    rw [← hs', commit_fst_profiles, get?_profiles_foldl_record]
    rfl
  | declare r' level t =>
    obtain ⟨-, -, rfl⟩ := declare_eq_ok_iff.1 h
    rw [get?_mergeProfile]
    by_cases hr : (Profile.declared r' level).reference = r <;> simp [Operation.profiles, hr]
  | recalculate t => exact absurd trivial hop
  | switch offline =>
    cases h
    rfl

theorem WellFormed.declared?_recalculate (hs : s.WellFormed) (t : Instant) (r : Reference) :
    (s.recalculate t).1.declared? r = s.declared? r := by
  apply Option.ext
  intro p
  rw [declared?_eq_some_iff, declared?_eq_some_iff]
  exact and_congr_left (fun hp => hs.declared_recalculate t hp)

/-- After an operation the declared profile of a reference is the last that the operation merged,
or else the one before. -/
theorem WellFormed.declared?_after (hs : s.WellFormed) (op : Operation) (r : Reference) :
    (s.after op).declared? r = (lastDeclared? r (s.mergedBy op)).or (s.declared? r) := by
  unfold after mergedBy
  cases hperform : op.perform s with
  | error fault => rfl
  | ok s' =>
    by_cases hop : op.Recalculates
    · cases op with
      | recalculate t =>
        obtain ⟨⟨s₁, rs⟩, hcall, rfl⟩ := map_eq_ok_iff.1 hperform
        obtain ⟨-, hresult⟩ := guarded_eq_ok_iff.1 hcall
        have hs₁ : (s.recalculate t).1 = s₁ := congrArg Prod.fst (Except.ok.inj hresult)
        subst hs₁
        exact hs.declared?_recalculate t r
      | _ => exact hop.elim
    · have hfind : (op.profiles.filter (fun p => decide (p.reference = r))).reverse.find?
          Profile.isDeclared = lastDeclared? r op.profiles := by
        simp [lastDeclared?, ← List.filter_reverse, List.find?_filter]
      unfold declared?
      rw [get?_profiles_of_perform hperform hop, filter_foldl_merged, hfind]

/-- An operation that neither recalculates nor merges a declared profile of a reference does not
lower its level. -/
theorem level_le_after (hop : ¬ op.Recalculates)
    (hundeclared : lastDeclared? r (s.mergedBy op) = none) :
    (s.profileOf r).level ≤ ((s.after op).profileOf r).level := by
  unfold after
  unfold mergedBy at hundeclared
  cases hperform : op.perform s with
  | error fault => exact Level.le_refl _
  | ok s' =>
    rw [hperform] at hundeclared
    unfold profileOf
    rw [get?_profiles_of_perform hperform hop]
    refine level_le_foldl_merged (fun p hp => ?_)
    obtain ⟨hmem, href⟩ := List.mem_filter.1 hp
    exact lastDeclared?_eq_none_iff.1 hundeclared p hmem (of_decide_eq_true href)

end Step

/-! ## Whole runs -/

section Whole

variable {s : Store} {r : Reference} {ops more : List Operation}

theorem Reachable.declared?_run (hs : s.Reachable) (ops : List Operation) (r : Reference) :
    (s.run ops).declared? r = (lastDeclared? r (s.history ops)).or (s.declared? r) := by
  induction ops generalizing s with
  | nil => rfl
  | cons op ops ih =>
    have hrun : s.run (op :: ops) = (s.after op).run ops := rfl
    have hhistory : s.history (op :: ops) = s.mergedBy op ++ (s.after op).history ops := rfl
    rw [hrun, hhistory, ih (hs.after op), hs.wellFormed.declared?_after, lastDeclared?_append,
      Option.or_assoc]

theorem level_le_run (hops : ∀ op ∈ ops, ¬ op.Recalculates)
    (hundeclared : lastDeclared? r (s.history ops) = none) :
    (s.profileOf r).level ≤ ((s.run ops).profileOf r).level := by
  induction ops generalizing s with
  | nil => exact Level.le_refl _
  | cons op ops ih =>
    have hhistory : s.history (op :: ops) = s.mergedBy op ++ (s.after op).history ops := rfl
    rw [hhistory, lastDeclared?_append, Option.or_eq_none_iff] at hundeclared
    have hstep := level_le_after (hops op List.mem_cons_self) hundeclared.2
    exact Level.le_trans hstep
      (ih (fun d hd => hops d (List.mem_cons_of_mem _ hd)) hundeclared.1)

/-- Over every run the declared profile of a reference is the last declared one merged for it; once
it has one it always has one, at the level of the last; and between recalculations the level of a
reference that was never declared does not decrease. -/
theorem declared_over_runs (ops : List Operation) (r : Reference) :
    (∀ p, (Store.empty.run ops).profiles.get? r = some p ∧ p.isDeclared = true ↔
      lastDeclared? r (Store.empty.history ops) = some p) ∧
    (∀ more, (Store.empty.run ops).Declares r → ∃ p,
      lastDeclared? r (Store.empty.history (ops ++ more)) = some p ∧ p.isDeclared = true ∧
      (Store.empty.run (ops ++ more)).profiles.get? r = some p) ∧
    (∀ more, (∀ op ∈ more, ¬ op.Recalculates) →
      (∀ p ∈ Store.empty.history (ops ++ more), p.reference = r → p.isDeclared = false) →
      ((Store.empty.run ops).profileOf r).level
        ≤ ((Store.empty.run (ops ++ more)).profileOf r).level) := by
  have hlast : ∀ ops p, (Store.empty.run ops).profiles.get? r = some p ∧ p.isDeclared = true ↔
      lastDeclared? r (Store.empty.history ops) = some p := by
    intro ops p
    rw [← declared?_eq_some_iff, Reachable.empty.declared?_run ops r]
    exact iff_of_eq (congrArg (· = some p) Option.or_none)
  refine ⟨hlast ops, ?_, ?_⟩
  · rintro more ⟨q, hq⟩
    -- what was merged before is followed by what is merged after
    have hbefore := (hlast ops q).1 hq
    have hsome : (lastDeclared? r (Store.empty.history (ops ++ more))).isSome = true := by
      rw [history_append, lastDeclared?_append, hbefore, Option.isSome_or, Option.isSome_some,
        Bool.or_true]
    obtain ⟨p, hp⟩ := Option.isSome_iff_exists.1 hsome
    obtain ⟨hstored, hdeclared⟩ := (hlast (ops ++ more) p).2 hp
    exact ⟨p, hp, hdeclared, hstored⟩
  · intro more hmore hnever
    rw [run_append]
    refine level_le_run hmore (lastDeclared?_eq_none_iff.2 (fun p hp => hnever p ?_))
    rw [history_append]
    exact List.mem_append_right _ hp

/-! ## A declared network and a name in it -/

namespace Overruled

def internet : Entity :=
  .network "internet"

def host : Entity :=
  .hostname internet.reference "example.com"

/-- The network is declared; the name comes with an inherited level. -/
def seeded : List Operation :=
  [.insert ((Snapshot.ofEntity internet).declare .l2) default,
    .insert ⟨host, some (.inherited host.reference .l1), none⟩ default]

/-- The name is observed with a higher level, and once more with a profile of the network. -/
def observed : List Operation :=
  [.observe ⟨"scan", internet.reference, none, default,
    [⟨host, some (.inherited host.reference .l3), none⟩,
      ⟨host, some (.inherited internet.reference .l4), none⟩]⟩]

/-- The network is declared anew, after a recalculation. -/
def lowered : List Operation :=
  [.recalculate default, .declare internet.reference .l1 default]

/-- The network keeps its declared level until it gets another one; the level of the name rises. -/
theorem declared_over_runs_overruled :
    (∃ p, lastDeclared? internet.reference (Store.empty.history (seeded ++ observed)) = some p ∧
      p.isDeclared = true ∧
      (Store.empty.run (seeded ++ observed)).profiles.get? internet.reference = some p) ∧
    (Store.empty.run (seeded ++ (observed ++ lowered))).profiles.get? internet.reference
      = some (.declared internet.reference .l1) ∧
    ((Store.empty.run seeded).profileOf host.reference).level
      ≤ ((Store.empty.run (seeded ++ observed)).profileOf host.reference).level ∧
    ((Store.empty.run (seeded ++ observed)).profileOf host.reference).level = .l3 := by
  have hdeclares : (Store.empty.run seeded).Declares internet.reference :=
    ⟨.declared internet.reference .l2, by decide +kernel, rfl⟩
  have hobserved : ∀ op ∈ observed, ¬ op.Recalculates := by
    intro op hop
    rw [List.mem_singleton.1 hop]
    exact not_false
  have hnever : ∀ p ∈ Store.empty.history (seeded ++ observed),
      p.reference = host.reference → p.isDeclared = false := by
    decide +kernel
  have hlast := (declared_over_runs (seeded ++ (observed ++ lowered)) internet.reference).1
    (.declared internet.reference .l1)
  exact ⟨(declared_over_runs seeded internet.reference).2.1 observed hdeclares,
    (hlast.2 (by decide +kernel)).1,
    (declared_over_runs seeded host.reference).2.2 observed hobserved hnever, by decide +kernel⟩

end Overruled

end Whole

end Store

end ScanGraph
