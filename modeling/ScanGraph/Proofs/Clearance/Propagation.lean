/-
Propagation assigns the highest level that a walk brings.

A walk leaves a node by an edge and enters only nodes that are no seeds; from a
seed it carries the level of the seed, lowered to the bounds of its edges.
`Arrives` says that some walk of at least one edge brings a level to a node, and
`Highest` that no walk brings more.  Both depend on the edges as a set and on
the seeds as a function, so neither order nor repetition of edges counts.

`propagate` sweeps over the edges level by level.  Here the same is said without
an order: at a level, open edges are crossed one by one in whatever order until
none is open (`Spread`, `Settled`), and an assignment goes through the levels
from the highest down (`Assigns`).  `Stage` is what holds between two levels,
and `Assigns.get?_eq_some_iff` what holds at the end, whatever the order was.
Main statement: `propagate_maximal_walk`.

## What is proved

For every graph and every assignment of seeds, and nothing is asked of either:

* a seed keeps its own level;
* any other node has a level above the lowest exactly if that is the highest one which a
  walk brings, and none exactly if no walk brings more than the lowest;
* any assignment that crosses the same edges from the same seeds, in whatever order and
  however often, agrees with the one that is computed (`Assigns.get?_congr`).

That the sweeps come to an end is part of it: each of them that changes anything leaves
fewer edges whose target has no level (`vacant`), so that as many sweeps as there are
edges suffice (`settled_saturate`).

Walks may go through a node more than once.  Since a walk stops at seeds, the level of a
seed says nothing about what could have reached it.
-/
import ScanGraph.Clearance

namespace ScanGraph

namespace ClearanceGraph

/-! ## Walks -/

/-- What is left of a level after crossing the edges of a walk. -/
def carried (start : Level) (walk : List Edge) : Level :=
  walk.foldl (fun l e => l.lower e.bound) start

/-- The edges lead from one node to another, and each enters a node that is no seed. -/
def IsWalk (g : ClearanceGraph) (seeds : Levels) : Reference → List Edge → Reference → Prop
  | r, [], n => r = n
  | r, e :: walk, n =>
      e ∈ g.edges ∧ e.source = r ∧ seeds.get? e.target = none ∧ IsWalk g seeds e.target walk n

/-- Some walk of at least one edge brings a level from a seed to a node. -/
def Arrives (g : ClearanceGraph) (seeds : Levels) (n : Reference) (c : Level) : Prop :=
  ∃ s m walk, seeds.get? s = some m ∧ walk ≠ [] ∧ g.IsWalk seeds s walk n ∧ carried m walk = c

/-- The highest level that walks bring to a node. -/
def Highest (g : ClearanceGraph) (seeds : Levels) (n : Reference) (l : Level) : Prop :=
  g.Arrives seeds n l ∧ ∀ c, g.Arrives seeds n c → c ≤ l

/-! ## What a walk carries -/

/-- A walk carries a level exactly if it starts with it and every edge admits it. -/
theorem le_carried_iff {l start : Level} {walk : List Edge} :
    l ≤ carried start walk ↔ l ≤ start ∧ ∀ e ∈ walk, l ≤ e.bound := by
  induction walk generalizing start with
  | nil => simp [carried]
  | cons e walk ih =>
    have hcons : carried start (e :: walk) = carried (start.lower e.bound) walk := rfl
    rw [hcons, ih, Level.le_lower_iff, List.forall_mem_cons, and_assoc]

/-! ## Walks put together -/

section Walks

variable {g g' : ClearanceGraph} {seeds seeds' : Levels}

theorem IsWalk.append {r n p : Reference} {walk more : List Edge} (h : g.IsWalk seeds r walk n)
    (hmore : g.IsWalk seeds n more p) : g.IsWalk seeds r (walk ++ more) p := by
  induction walk generalizing r with
  | nil =>
    have hr : r = n := h
    exact hr ▸ hmore
  | cons e walk ih =>
    obtain ⟨he, hsource, htarget, hwalk⟩ := h
    exact ⟨he, hsource, htarget, ih hwalk⟩

theorem isWalk_edge {e : Edge} (he : e ∈ g.edges) (htarget : seeds.get? e.target = none) :
    g.IsWalk seeds e.source [e] e.target :=
  ⟨he, rfl, htarget, rfl⟩

/-- A walk stays one where its edges are kept and the nodes that it enters are no seeds. -/
theorem IsWalk.imp {r n : Reference} {walk : List Edge} (h : g.IsWalk seeds r walk n)
    (hedges : ∀ e ∈ walk, e ∈ g.edges → e ∈ g'.edges)
    (hseeds : ∀ e ∈ walk, seeds.get? e.target = none → seeds'.get? e.target = none) :
    g'.IsWalk seeds' r walk n := by
  induction walk generalizing r with
  | nil => exact h
  | cons e walk ih =>
    obtain ⟨he, hsource, htarget, hwalk⟩ := h
    exact ⟨hedges e List.mem_cons_self he, hsource, hseeds e List.mem_cons_self htarget,
      ih hwalk (fun d hd => hedges d (List.mem_cons_of_mem _ hd))
        (fun d hd => hseeds d (List.mem_cons_of_mem _ hd))⟩

/-- The node that a walk of at least one edge ends at is no seed. -/
theorem IsWalk.end_not_seed {r n : Reference} {walk : List Edge} (h : g.IsWalk seeds r walk n)
    (hne : walk ≠ []) : seeds.get? n = none := by
  induction walk generalizing r with
  | nil => exact absurd rfl hne
  | cons e walk ih =>
    obtain ⟨-, -, htarget, hwalk⟩ := h
    cases walk with
    | nil =>
      have hn : e.target = n := hwalk
      exact hn ▸ htarget
    | cons d rest => exact ih hwalk (List.cons_ne_nil d rest)

theorem Arrives.not_seed {n : Reference} {c : Level} (h : g.Arrives seeds n c) :
    seeds.get? n = none := by
  obtain ⟨s, m, walk, -, hne, hwalk, -⟩ := h
  exact hwalk.end_not_seed hne

/-- An edge brings on what arrives at its source, up to its bound. -/
theorem Arrives.cross {e : Edge} {c l : Level} (h : g.Arrives seeds e.source c)
    (he : e ∈ g.edges) (htarget : seeds.get? e.target = none) (hc : l ≤ c) (hb : l ≤ e.bound) :
    ∃ d, g.Arrives seeds e.target d ∧ l ≤ d := by
  obtain ⟨s, m, walk, hs, -, hwalk, rfl⟩ := h
  obtain ⟨hm, hwalkBounds⟩ := le_carried_iff.1 hc
  refine ⟨carried m (walk ++ [e]), ⟨s, m, walk ++ [e], hs, by simp,
    hwalk.append (isWalk_edge he htarget), rfl⟩, le_carried_iff.2 ⟨hm, fun d hd => ?_⟩⟩
  rcases List.mem_append.1 hd with hd | hd
  · exact hwalkBounds d hd
  · exact List.mem_singleton.1 hd ▸ hb

theorem arrives_of_seed {e : Edge} {m : Level} (hs : seeds.get? e.source = some m)
    (he : e ∈ g.edges) (htarget : seeds.get? e.target = none) :
    g.Arrives seeds e.target (m.lower e.bound) :=
  ⟨e.source, m, [e], hs, List.cons_ne_nil e [], isWalk_edge he htarget, rfl⟩

/-- With more edges and the same seeds, at least the same arrives. -/
theorem Arrives.mono {n : Reference} {c : Level} (h : g.Arrives seeds n c)
    (hedges : g.edges ⊆ g'.edges) (hseeds : ∀ r, seeds.get? r = seeds'.get? r) :
    g'.Arrives seeds' n c := by
  obtain ⟨s, m, walk, hs, hne, hwalk, hc⟩ := h
  exact ⟨s, m, walk, hseeds s ▸ hs, hne,
    hwalk.imp (fun _ _ he => hedges he) (fun e _ he => hseeds e.target ▸ he), hc⟩

/-- What arrives depends on the edges as a set and on the seeds as a function. -/
theorem highest_congr {n : Reference} {l : Level} (hedges : ∀ e, e ∈ g.edges ↔ e ∈ g'.edges)
    (hseeds : ∀ r, seeds.get? r = seeds'.get? r) :
    g.Highest seeds n l ↔ g'.Highest seeds' n l := by
  have hforth : ∀ c, g.Arrives seeds n c → g'.Arrives seeds' n c :=
    fun _ hc => hc.mono (fun e => (hedges e).1) hseeds
  have hback : ∀ c, g'.Arrives seeds' n c → g.Arrives seeds n c :=
    fun _ hc => hc.mono (fun e => (hedges e).2) (fun r => (hseeds r).symm)
  exact ⟨fun h => ⟨hforth l h.1, fun c hc => h.2 c (hback c hc)⟩,
    fun h => ⟨hback l h.1, fun c hc => h.2 c (hforth c hc)⟩⟩

end Walks

/-! ## Assignments in any order -/

/-- The edge can be crossed at a level: its source has at least this level, its bound admits it,
and its target has no level. -/
def IsOpen (l : Level) (a : Levels) (e : Edge) : Prop :=
  (∃ m, a.get? e.source = some m ∧ l ≤ m) ∧ l ≤ e.bound ∧ a.get? e.target = none

/-- Edges crossed at a level, one after the other and in any order. -/
inductive Spread (g : ClearanceGraph) (l : Level) : Levels → Levels → Prop
  | stop (a : Levels) : Spread g l a a
  | cross {a b : Levels} {e : Edge} : e ∈ g.edges → IsOpen l a e →
      Spread g l (a.insert e.target l) b → Spread g l a b

/-- No edge can be crossed at a level. -/
def Settled (g : ClearanceGraph) (l : Level) (a : Levels) : Prop :=
  ∀ e ∈ g.edges, ¬ IsOpen l a e

/-- Edges crossed at one level after the other, at each of them until none is open. -/
inductive Assigns (g : ClearanceGraph) : List Level → Levels → Levels → Prop
  | done (a : Levels) : Assigns g [] a a
  | level {l : Level} {ls : List Level} {a b c : Levels} : Spread g l a b → Settled g l b →
      Assigns g ls b c → Assigns g (l :: ls) a c

section Spread

variable {g : ClearanceGraph} {l : Level} {a b c : Levels} {n : Reference} {k : Level}

theorem Spread.trans (hab : Spread g l a b) (hbc : Spread g l b c) : Spread g l a c := by
  induction hab with
  | stop => exact hbc
  | cross he hopen _ ih => exact .cross he hopen (ih hbc)

theorem get?_insert_of_open {e : Edge} (hopen : IsOpen l a e) (h : a.get? n = some k) :
    (a.insert e.target l).get? n = some k := by
  rw [Table.get?_insert_of_ne a l, h]
  rintro rfl
  rw [hopen.2.2] at h
  exact Option.some_ne_none k h.symm

theorem Spread.get?_eq (h : Spread g l a b) (hn : a.get? n = some k) : b.get? n = some k := by
  induction h with
  | stop => exact hn
  | cross _ hopen _ ih => exact ih (get?_insert_of_open hopen hn)

/-- A level that was not there before is the one at which the edges were crossed. -/
theorem Spread.eq_or_get?_eq (h : Spread g l a b) (hn : b.get? n = some k) :
    a.get? n = some k ∨ k = l := by
  induction h with
  | stop => exact .inl hn
  | @cross a b e _ hopen _ ih =>
    rcases ih hn with hk | rfl
    · by_cases hne : n = e.target
      · subst hne
        rw [Table.get?_insert_self] at hk
        exact .inr (Option.some.inj hk).symm
      · rw [Table.get?_insert_of_ne a l hne] at hk
        exact .inl hk
    · exact .inr rfl

end Spread

/-! ## Between two levels -/

/-- Seeds keep their levels, and every other level is one of a list and arrives by a walk. -/
structure Grounded (g : ClearanceGraph) (seeds : Levels) (levels : List Level) (a : Levels) :
    Prop where
  keeps : ∀ n k, seeds.get? n = some k → a.get? n = some k
  sound : ∀ n k, a.get? n = some k → seeds.get? n = none →
    k ∈ levels ∧ ∃ c, g.Arrives seeds n c ∧ k ≤ c

/-- What holds when the levels of a list are done: besides, no edge leads from a level on the list
to less of it. -/
structure Stage (g : ClearanceGraph) (seeds : Levels) (levels : List Level) (a : Levels) : Prop
    extends Grounded g seeds levels a where
  closed : ∀ l ∈ levels, ∀ e ∈ g.edges, ∀ m, a.get? e.source = some m → l ≤ m → l ≤ e.bound →
    seeds.get? e.target = none → ∃ k, a.get? e.target = some k ∧ l ≤ k

section Stage

variable {g : ClearanceGraph} {seeds a b : Levels} {levels : List Level} {l : Level}

theorem stage_seeds (g : ClearanceGraph) (seeds : Levels) : Stage g seeds [] seeds where
  keeps := fun _ _ h => h
  sound := fun _ k hk hnone => absurd (hnone ▸ hk) (Option.some_ne_none k).symm
  closed := fun _ hl => absurd hl List.not_mem_nil

theorem Grounded.mono {levels' : List Level} (h : Grounded g seeds levels a)
    (hsub : levels ⊆ levels') : Grounded g seeds levels' a where
  keeps := h.keeps
  sound := fun n k hk hnone => (h.sound n k hk hnone).imp_left (fun hmem => hsub hmem)

theorem Grounded.target_not_seed (h : Grounded g seeds levels a) {e : Edge} (hopen : IsOpen l a e) :
    seeds.get? e.target = none := by
  cases hseed : seeds.get? e.target with
  | none => rfl
  | some k =>
    have hk : a.get? e.target = some k := h.keeps _ k hseed
    exact absurd (hk.symm.trans hopen.2.2) (Option.some_ne_none k)

/-- The level at which an open edge is crossed arrives at its target. -/
theorem Grounded.arrives_of_open (h : Grounded g seeds levels a) {e : Edge} (he : e ∈ g.edges)
    (hopen : IsOpen l a e) : ∃ c, g.Arrives seeds e.target c ∧ l ≤ c := by
  have hnone := h.target_not_seed hopen
  obtain ⟨⟨m, hm, hlm⟩, hbound, -⟩ := hopen
  cases hseed : seeds.get? e.source with
  | some k =>
    have hk : k = m := Option.some.inj ((h.keeps _ k hseed).symm.trans hm)
    exact ⟨_, arrives_of_seed hseed he hnone, Level.le_lower_iff.2 ⟨hk ▸ hlm, hbound⟩⟩
  | none =>
    obtain ⟨-, c, harrives, hmc⟩ := h.sound _ m hm hseed
    exact harrives.cross he hnone (Level.le_trans hlm hmc) hbound

theorem Grounded.cross (h : Grounded g seeds levels a) (hl : l ∈ levels) {e : Edge}
    (he : e ∈ g.edges) (hopen : IsOpen l a e) :
    Grounded g seeds levels (a.insert e.target l) where
  keeps := fun n k hk => get?_insert_of_open hopen (h.keeps n k hk)
  sound := by
    intro n k hk hnone
    by_cases hn : n = e.target
    · subst hn
      rw [Table.get?_insert_self] at hk
      cases hk
      exact ⟨hl, h.arrives_of_open he hopen⟩
    · rw [Table.get?_insert_of_ne a l hn] at hk
      exact h.sound n k hk hnone

theorem Grounded.spread (h : Grounded g seeds levels a) (hl : l ∈ levels)
    (hspread : Spread g l a b) : Grounded g seeds levels b := by
  induction hspread with
  | stop => exact h
  | cross he hopen _ ih => exact ih (h.cross hl he hopen)

/-- A level below those done before is done once no edge can be crossed at it. -/
theorem Stage.next (h : Stage g seeds levels a) (hbelow : ∀ k ∈ levels, l ≤ k)
    (hspread : Spread g l a b) (hsettled : Settled g l b) : Stage g seeds (l :: levels) b := by
  have hground : Grounded g seeds (l :: levels) b :=
    (h.toGrounded.mono (List.subset_cons_self l levels)).spread List.mem_cons_self hspread
  have hpresent : ∀ e ∈ g.edges, ∀ m, b.get? e.source = some m → l ≤ m → l ≤ e.bound →
      seeds.get? e.target = none → ∃ k, b.get? e.target = some k ∧ l ≤ k := by
    intro e he m hm hlm hbound hnone
    cases htarget : b.get? e.target with
    | none => exact absurd ⟨⟨m, hm, hlm⟩, hbound, htarget⟩ (hsettled e he)
    | some k =>
      refine ⟨k, rfl, ?_⟩
      rcases List.mem_cons.1 (hground.sound _ k htarget hnone).1 with rfl | hk
      · exact Level.le_refl k
      · exact hbelow k hk
  refine ⟨hground, fun k hk e he m hm hkm hbound hnone => ?_⟩
  rcases List.mem_cons.1 hk with rfl | hold
  · exact hpresent e he m hm hkm hbound hnone
  · rcases hspread.eq_or_get?_eq hm with hbefore | rfl
    · obtain ⟨k', hk', hle⟩ := h.closed k hold e he m hbefore hkm hbound hnone
      exact ⟨k', hspread.get?_eq hk', hle⟩
    · -- the source is new, so an earlier level that it has is the present one
      have heq : k = m := Level.le_antisymm hkm (hbelow k hold)
      exact heq ▸ hpresent e he m hm (Level.le_refl m) (heq ▸ hbound) hnone

theorem Assigns.stage {ls : List Level} (h : Assigns g ls a b) (hstage : Stage g seeds levels a)
    (hbelow : ∀ k ∈ ls, ∀ k' ∈ levels, k ≤ k') (hdesc : ls.Pairwise (fun k k' => k' ≤ k)) :
    Stage g seeds (ls.reverse ++ levels) b := by
  induction h generalizing levels with
  | done => exact hstage
  | @level l ls a b c hspread hsettled _ ih =>
    obtain ⟨hhead, hrest⟩ := List.pairwise_cons.1 hdesc
    have hnext := hstage.next (hbelow l List.mem_cons_self) hspread hsettled
    rw [List.reverse_cons, List.append_assoc, List.singleton_append]
    refine ih hnext (fun k hk k' hk' => ?_) hrest
    rcases List.mem_cons.1 hk' with rfl | hk'
    · exact hhead k hk
    · exact hbelow k (List.mem_cons_of_mem _ hk) k' hk'

/-- What a walk carries along from an assigned node, the node at its end has. -/
theorem Stage.walk (h : Stage g seeds levels a) (hl : l ∈ levels) {r n : Reference}
    {walk : List Edge} (hwalk : g.IsWalk seeds r walk n) {m : Level} (hm : a.get? r = some m)
    (hlm : l ≤ m) (hbounds : ∀ e ∈ walk, l ≤ e.bound) : ∃ k, a.get? n = some k ∧ l ≤ k := by
  induction walk generalizing r m with
  | nil =>
    have hr : r = n := hwalk
    exact ⟨m, hr ▸ hm, hlm⟩
  | cons e walk ih =>
    obtain ⟨he, rfl, hnone, hwalk⟩ := hwalk
    obtain ⟨k, hk, hlk⟩ :=
      h.closed l hl e he m hm hlm (hbounds e List.mem_cons_self) hnone
    exact ih hwalk hk hlk (fun d hd => hbounds d (List.mem_cons_of_mem _ hd))

end Stage

/-! ## After the last level -/

theorem mem_propagationLevels {l : Level} : l ∈ propagationLevels ↔ l ≠ .l0 := by
  cases l <;> decide

section Result

variable {g : ClearanceGraph} {seeds a : Levels} {n : Reference} {l : Level}

theorem Assigns.stage_levels (h : Assigns g propagationLevels seeds a) :
    Stage g seeds propagationLevels.reverse a := by
  have hdesc : propagationLevels.Pairwise (fun k k' => k' ≤ k) := by decide
  have hstage := h.stage (stage_seeds g seeds) (fun _ _ _ hk => absurd hk List.not_mem_nil) hdesc
  rwa [List.append_nil] at hstage

theorem Assigns.get?_of_seed (h : Assigns g propagationLevels seeds a)
    (hs : seeds.get? n = some l) : a.get? n = some l :=
  h.stage_levels.keeps n l hs

theorem Assigns.le_of_arrives (h : Assigns g propagationLevels seeds a) {c : Level}
    (hc : g.Arrives seeds n c) (hne : c ≠ .l0) : ∃ k, a.get? n = some k ∧ c ≤ k := by
  obtain ⟨s, m, walk, hs, -, hwalk, hcarried⟩ := hc
  obtain ⟨hcm, hbounds⟩ := le_carried_iff.1 (Level.le_of_eq hcarried.symm)
  exact h.stage_levels.walk (List.mem_reverse.2 (mem_propagationLevels.2 hne)) hwalk
    (h.get?_of_seed hs) hcm hbounds

/-- A node that is no seed gets a level exactly if that is the highest one that arrives, and more
than the lowest. -/
theorem Assigns.get?_eq_some_iff (h : Assigns g propagationLevels seeds a)
    (hn : seeds.get? n = none) : a.get? n = some l ↔ l ≠ .l0 ∧ g.Highest seeds n l := by
  have hsound : ∀ k, a.get? n = some k → k ≠ .l0 ∧ ∃ c, g.Arrives seeds n c ∧ k ≤ c := fun k hk =>
    (h.stage_levels.sound n k hk hn).imp_left
      (fun hmem => mem_propagationLevels.1 (List.mem_reverse.1 hmem))
  constructor
  · intro hl
    obtain ⟨hl0, c, hc, hlc⟩ := hsound l hl
    have hmax : ∀ d, g.Arrives seeds n d → d ≤ l := by
      intro d hd
      by_cases hd0 : d = .l0
      · exact hd0 ▸ Level.l0_le l
      · obtain ⟨k, hk, hdk⟩ := h.le_of_arrives hd hd0
        rw [hl] at hk
        cases hk
        exact hdk
    exact ⟨hl0, Level.le_antisymm hlc (hmax c hc) ▸ hc, hmax⟩
  · rintro ⟨hl0, harrives, hmax⟩
    obtain ⟨k, hk, hlk⟩ := h.le_of_arrives harrives hl0
    obtain ⟨-, c, hc, hkc⟩ := hsound k hk
    rw [hk, Level.le_antisymm (Level.le_trans hkc (hmax c hc)) hlk]

/-- Nodes without a level are those at which nothing or only the lowest level arrives. -/
theorem Assigns.get?_eq_none_iff (h : Assigns g propagationLevels seeds a) :
    a.get? n = none ↔
      seeds.get? n = none ∧ ((∀ c, ¬ g.Arrives seeds n c) ∨ g.Highest seeds n .l0) := by
  constructor
  · intro hnone
    have hlow : ∀ c, g.Arrives seeds n c → c = .l0 := by
      intro c hc
      refine Decidable.byContradiction (fun hne => ?_)
      obtain ⟨k, hk, -⟩ := h.le_of_arrives hc hne
      exact absurd (hk.symm.trans hnone) (Option.some_ne_none k)
    refine ⟨?_, ?_⟩
    · cases hseed : seeds.get? n with
      | none => rfl
      | some k => exact absurd ((h.get?_of_seed hseed).symm.trans hnone) (Option.some_ne_none k)
    · rcases Classical.em (∃ c, g.Arrives seeds n c) with ⟨c, hc⟩ | hno
      · exact .inr ⟨hlow c hc ▸ hc, fun d hd => Level.le_of_eq (hlow d hd)⟩
      · exact .inl (fun c hc => hno ⟨c, hc⟩)
  · rintro ⟨hseed, hnothing⟩
    cases hk : a.get? n with
    | none => rfl
    | some k =>
      obtain ⟨hk0, harrives, -⟩ := (h.get?_eq_some_iff hseed).1 hk
      rcases hnothing with hno | ⟨-, hmax⟩
      · exact absurd harrives (hno k)
      · exact absurd (Level.le_l0_iff.1 (hmax k harrives)) hk0

/-- Assignments agree however edges were crossed, if the edges are the same as a set and the seeds
as a function. -/
theorem Assigns.get?_congr {g' : ClearanceGraph} {seeds' a' : Levels}
    (h : Assigns g propagationLevels seeds a) (h' : Assigns g' propagationLevels seeds' a')
    (hedges : ∀ e, e ∈ g.edges ↔ e ∈ g'.edges) (hseeds : ∀ r, seeds.get? r = seeds'.get? r)
    (n : Reference) : a.get? n = a'.get? n := by
  cases hs : seeds.get? n with
  | some k => rw [h.get?_of_seed hs, h'.get?_of_seed (hseeds n ▸ hs)]
  | none =>
    apply Option.ext
    intro l
    rw [h.get?_eq_some_iff hs, h'.get?_eq_some_iff (hseeds n ▸ hs), highest_congr hedges hseeds]

end Result

/-! ## Propagation is such an assignment -/

section Sweeps

variable {g : ClearanceGraph} {l : Level} {a : Levels}

theorem cross_of_open {e : Edge} (h : IsOpen l a e) : cross l a e = a.insert e.target l := by
  obtain ⟨⟨m, hm, hlm⟩, hbound, htarget⟩ := h
  simp [cross, hm, hlm, hbound, htarget]

theorem cross_of_not_open {e : Edge} (h : ¬ IsOpen l a e) : cross l a e = a := by
  unfold cross
  split
  · rename_i m hm
    rw [if_neg]
    rintro ⟨hlm, hbound, htarget⟩
    exact h ⟨⟨m, hm, hlm⟩, hbound, Option.isNone_iff_eq_none.1 htarget⟩
  · rfl

theorem spread_cross {e : Edge} (he : e ∈ g.edges) : Spread g l a (cross l a e) := by
  by_cases hopen : IsOpen l a e
  · exact cross_of_open hopen ▸ .cross he hopen (.stop _)
  · exact (cross_of_not_open hopen).symm ▸ .stop a

theorem spread_foldl {es : List Edge} (hes : ∀ e ∈ es, e ∈ g.edges) :
    Spread g l a (es.foldl (cross l) a) := by
  induction es generalizing a with
  | nil => exact .stop a
  | cons e es ih =>
    exact (spread_cross (hes e List.mem_cons_self)).trans
      (ih (fun d hd => hes d (List.mem_cons_of_mem _ hd)))

theorem spread_sweep (g : ClearanceGraph) (l : Level) (a : Levels) : Spread g l a (g.sweep l a) :=
  spread_foldl (fun _ h => h)

theorem spread_saturate (g : ClearanceGraph) (l : Level) (rounds : Nat) (a : Levels) :
    Spread g l a (g.saturate l rounds a) := by
  induction rounds generalizing a with
  | zero => exact .stop a
  | succ rounds ih =>
    simp only [saturate]
    split
    · exact .stop a
    · exact (spread_sweep g l a).trans (ih _)

/-! ## Enough sweeps -/

theorem size_le_cross (e : Edge) : a.size ≤ (cross l a e).size := by
  by_cases hopen : IsOpen l a e
  · rw [cross_of_open hopen, Table.size_insert_of_none l hopen.2.2]
    exact Nat.le_succ _
  · exact Nat.le_of_eq (congrArg Table.size (cross_of_not_open hopen)).symm

theorem size_le_foldl_cross (es : List Edge) (a : Levels) :
    a.size ≤ (es.foldl (cross l) a).size := by
  induction es generalizing a with
  | nil => exact Nat.le_refl _
  | cons e es ih => exact Nat.le_trans (size_le_cross e) (ih (cross l a e))

theorem not_open_of_size_eq {es : List Edge} (h : (es.foldl (cross l) a).size = a.size) :
    ∀ e ∈ es, ¬ IsOpen l a e := by
  induction es with
  | nil => exact fun _ he => absurd he List.not_mem_nil
  | cons e es ih =>
    have hrest : (cross l a e).size ≤ a.size := h ▸ size_le_foldl_cross es (cross l a e)
    have hnot : ¬ IsOpen l a e := by
      intro hopen
      rw [cross_of_open hopen, Table.size_insert_of_none l hopen.2.2] at hrest
      exact Nat.not_succ_le_self _ hrest
    rw [List.foldl_cons, cross_of_not_open hnot] at h
    exact List.forall_mem_cons.2 ⟨hnot, ih h⟩

/-- The number of edges whose target has no level. -/
def vacant (g : ClearanceGraph) (a : Levels) : Nat :=
  (g.edges.filter (fun e => (a.get? e.target).isNone)).length

theorem vacant_cross {e : Edge} (he : e ∈ g.edges) (hopen : IsOpen l a e) :
    g.vacant (a.insert e.target l) < g.vacant a := by
  have hsub : g.edges.filter (fun d => ((a.insert e.target l).get? d.target).isNone)
      = (g.edges.filter (fun d => (a.get? d.target).isNone)).filter
          (fun d => ((a.insert e.target l).get? d.target).isNone) := by
    rw [List.filter_filter]
    refine List.filter_congr (fun d _ => ?_)
    rw [Table.get?_insert]
    split <;> simp
  unfold vacant
  rw [hsub, List.length_filter_lt_length_iff_exists]
  exact ⟨e, List.mem_filter.2 ⟨he, by rw [hopen.2.2]; rfl⟩, by rw [Table.get?_insert_self]; simp⟩

theorem Spread.eq_or_vacant_lt {b : Levels} (h : Spread g l a b) :
    b = a ∨ g.vacant b < g.vacant a := by
  induction h with
  | stop => exact .inl rfl
  | cross he hopen _ ih =>
    have hlt := vacant_cross he hopen
    rcases ih with heq | hless
    · exact .inr (heq ▸ hlt)
    · exact .inr (Nat.lt_trans hless hlt)

/-- As many sweeps as there are vacant targets leave no edge open. -/
theorem settled_saturate (g : ClearanceGraph) (l : Level) (rounds : Nat) (a : Levels)
    (hrounds : g.vacant a ≤ rounds) : Settled g l (g.saturate l rounds a) := by
  induction rounds generalizing a with
  | zero =>
    intro e he hopen
    have hvacant : e ∈ g.edges.filter (fun e => (a.get? e.target).isNone) :=
      List.mem_filter.2 ⟨he, Option.isNone_iff_eq_none.2 hopen.2.2⟩
    rw [List.length_eq_zero_iff.1 (Nat.le_zero.1 hrounds)] at hvacant
    exact List.not_mem_nil hvacant
  | succ rounds ih =>
    simp only [saturate]
    split
    · rename_i hsize
      exact not_open_of_size_eq hsize
    · rename_i hsize
      refine ih _ ?_
      rcases (spread_sweep g l a).eq_or_vacant_lt with heq | hlt
      · exact absurd (congrArg Table.size heq) hsize
      · exact Nat.le_of_lt_succ (Nat.lt_of_lt_of_le hlt hrounds)

theorem assigns_foldl_saturate (g : ClearanceGraph) (ls : List Level) (a : Levels) :
    Assigns g ls a (ls.foldl (fun a l => g.saturate l g.edges.length a) a) := by
  induction ls generalizing a with
  | nil => exact .done a
  | cons l ls ih =>
    exact .level (spread_saturate g l _ a)
      (settled_saturate g l _ a (List.length_filter_le _ _)) (ih _)

end Sweeps

theorem assigns_propagate (g : ClearanceGraph) (seeds : Levels) :
    Assigns g propagationLevels seeds (g.propagate seeds) :=
  assigns_foldl_saturate g propagationLevels seeds

/-- Propagation keeps the level of every seed and gives any other node the highest level that a
walk from a seed brings, if that is more than the lowest.  An assignment that crosses the same
edges from the same seeds in any other order gives every node the same. -/
theorem propagate_maximal_walk (g : ClearanceGraph) (seeds : Levels) :
    (∀ s m, seeds.get? s = some m → (g.propagate seeds).get? s = some m) ∧
    (∀ n, seeds.get? n = none → ∀ l,
      (g.propagate seeds).get? n = some l ↔ l ≠ .l0 ∧ g.Highest seeds n l) ∧
    (∀ n, (g.propagate seeds).get? n = none ↔
      seeds.get? n = none ∧ ((∀ c, ¬ g.Arrives seeds n c) ∨ g.Highest seeds n .l0)) ∧
    (∀ (g' : ClearanceGraph) (seeds' a : Levels), (∀ e, e ∈ g'.edges ↔ e ∈ g.edges) →
      (∀ r, seeds'.get? r = seeds.get? r) → Assigns g' propagationLevels seeds' a →
      ∀ n, a.get? n = (g.propagate seeds).get? n) := by
  have hassigns := assigns_propagate g seeds
  refine ⟨fun _ _ hs => hassigns.get?_of_seed hs, fun _ hn _ => hassigns.get?_eq_some_iff hn,
    fun _ => hassigns.get?_eq_none_iff, fun g' seeds' a hedges hseeds ha => ?_⟩
  exact ha.get?_congr hassigns hedges hseeds

end ClearanceGraph

end ScanGraph
