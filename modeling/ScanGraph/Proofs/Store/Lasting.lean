/-
What stays visible.

No call takes a version away: a write adds one, or puts one in the place of
another of the same time.  So what is visible under a reference at some time is
visible there at every later time, whatever is written after that, though maybe
in another version: `Call.known`.

## What is proved, and what it is for

`Known` is monotone: whatever is visible under a reference at a time stays visible, at
that time and at every later one, after any calls that succeed.  It is used wherever one
moment looks at what another one stored, be it between two calls of a worker or in a
whole run.

## What is not

The object that is visible may be another one: a write at the same time replaces it, and
one in between comes before it.  Nothing is said about profiles, which calls do change;
and calls that fail leave no store to speak of.
-/
import ScanGraph.Proofs.Store.Reachable

namespace ScanGraph

theorem Instant.upTo_trans {a b c : Instant} (hab : a.upTo b = true) (hbc : b.upTo c = true) :
    a.upTo c = true := by
  simp only [upTo, decide_eq_true_eq] at *
  omega

namespace Store

/-- A call to a store that succeeds leads to another store. -/
inductive Call (s : Store) : Store → Prop
  | insert {s' : Store} {o : Snapshot} {t : Instant} {c : Option Commit} :
      s.insert o t = .ok (s', c) → Call s s'
  | observe {s' : Store} {o : Observation} {cs : List Commit} :
      s.observe o = .ok (s', cs) → Call s s'
  | declare {s' : Store} {r : Reference} {l : Level} {t : Instant} :
      s.declare r l t = .ok s' → Call s s'
  | recalculate {s' : Store} {t : Instant} {rs : List Reference} :
      s.recalculateProfiles t = .ok (s', rs) → Call s s'
  | switch (offline : Bool) : Call s { s with offline := offline }

theorem Reachable.call {s s' : Store} (hs : s.Reachable) (h : s.Call s') : s'.Reachable := by
  cases h with
  | insert hcall => exact .insert hs hcall
  | observe hcall => exact .observe hs hcall
  | declare hcall => exact .declare hs hcall
  | recalculate hcall => exact .recalculate hs hcall
  | switch offline => exact .switch offline hs

/-! ## What every call keeps -/

section Keeps

variable {motive : Store → Prop} {s s' : Store}
  (hwrite : ∀ s e t, motive s → motive (s.write e t).1)
  (hversions : ∀ s s' : Store, s'.versions = s.versions → motive s → motive s')

include hwrite hversions

theorem keeps_put (hs : motive s) (o : Snapshot) (t : Instant) : motive (s.put o t).1 := by
  obtain ⟨e, p, time⟩ := o
  have hwritten : motive (s.write e t).1 := hwrite s e t hs
  cases p with
  | none => exact hwritten
  | some p => exact hversions _ _ (mergeProfile_versions _ p) hwritten

theorem keeps_commit (hs : motive s) (o : Observation) : motive (s.commit o).1 := by
  have hfold : motive (o.result.foldl (record o.validTime) (s, [])).1 :=
    foldl_record_induction o.validTime o.result (s, []) hs (fun s d _ hs =>
      hversions _ _ (mergeProfile_versions _ _) (hwrite s d.entity o.validTime hs))
  exact hversions (o.result.foldl (record o.validTime) (s, [])).1 _ rfl hfold

/-- What writing keeps, and what hangs on the versions alone, every call keeps. -/
theorem Call.keeps (h : s.Call s') (hs : motive s) : motive s' := by
  cases h with
  | @insert s' o t c hcall =>
    obtain ⟨-, hput⟩ := guarded_eq_ok_iff.1 hcall
    have hs' : (s.put o t).1 = s' := congrArg Prod.fst (Except.ok.inj hput)
    exact hs' ▸ keeps_put hwrite hversions hs o t
  | @observe s' o cs hcall =>
    obtain ⟨-, -, hcommit⟩ := observe_eq_ok_iff.1 hcall
    have hs' : (s.commit o).1 = s' := congrArg Prod.fst hcommit
    exact hs' ▸ keeps_commit hwrite hversions hs o
  | @declare s' r l t hcall =>
    obtain ⟨-, -, rfl⟩ := declare_eq_ok_iff.1 hcall
    exact hversions _ _ (mergeProfile_versions s _) hs
  | @recalculate s' t rs hcall =>
    obtain ⟨-, hrecalculate⟩ := guarded_eq_ok_iff.1 hcall
    have hs' : (s.recalculate t).1 = s' := congrArg Prod.fst (Except.ok.inj hrecalculate)
    exact hs' ▸ hversions s _ rfl hs
  | switch offline => exact hversions s _ rfl hs

end Keeps

/-- Something is visible at `t` under a reference. -/
def Known (s : Store) (t : Instant) (r : Reference) : Prop :=
  ∃ e, s.visible? r t = some e

section Known

variable {s s' : Store} {t t' : Instant} {r : Reference}

theorem exists_latest_iff {vs : List Version} :
    (∃ e, latest t vs = some e) ↔ ∃ v ∈ vs, v.validTime.upTo t = true := by
  constructor
  · rintro ⟨e, he⟩
    obtain ⟨v, hv, -, hup⟩ := mem_of_latest he
    exact ⟨v, hv, hup⟩
  · rintro ⟨v, hv, hup⟩
    cases hlatest : latest t vs with
    | none => exact absurd (hup.symm.trans (latest_eq_none_iff.1 hlatest v hv)) (by decide)
    | some e => exact ⟨e, rfl⟩

theorem known_iff : s.Known t r ↔
    ∃ vs, s.versions.get? r = some vs ∧ ∃ v ∈ vs, v.validTime.upTo t = true := by
  unfold Known
  simp only [visible?_eq_some_iff, ← exists_latest_iff]
  constructor
  · rintro ⟨e, vs, hvs, he⟩
    exact ⟨vs, hvs, e, he⟩
  · rintro ⟨vs, hvs, e, he⟩
    exact ⟨e, vs, hvs, he⟩

theorem Known.later (h : s.Known t r) (ht : t.upTo t' = true) : s.Known t' r := by
  obtain ⟨vs, hvs, v, hv, hup⟩ := known_iff.1 h
  exact known_iff.2 ⟨vs, hvs, v, hv, Instant.upTo_trans hup ht⟩

theorem Known.congr (h : s.Known t r) (hversions : s'.versions = s.versions) : s'.Known t r := by
  obtain ⟨vs, hvs, hv⟩ := known_iff.1 h
  exact known_iff.2 ⟨vs, hversions ▸ hvs, hv⟩

/-! ## Writing keeps what is visible -/

/-- Putting a version keeps a version of every time that there was one of. -/
theorem exists_mem_putVersion {v w : Version} {vs : List Version} (hw : w ∈ vs) :
    ∃ w' ∈ putVersion v vs, w'.validTime = w.validTime := by
  induction vs with
  | nil => exact absurd hw List.not_mem_nil
  | cons u rest ih =>
    simp only [putVersion]
    rcases List.mem_cons.1 hw with rfl | hw
    · split
      · rename_i htime
        exact ⟨v, List.mem_cons_self, htime.symm⟩
      · split
        · exact ⟨w, List.mem_cons_of_mem _ List.mem_cons_self, rfl⟩
        · exact ⟨w, List.mem_cons_self, rfl⟩
    · split
      · exact ⟨w, List.mem_cons_of_mem _ hw, rfl⟩
      · split
        · exact ⟨w, List.mem_cons_of_mem _ (List.mem_cons_of_mem _ hw), rfl⟩
        · obtain ⟨w', hw', htime⟩ := ih hw
          exact ⟨w', List.mem_cons_of_mem _ hw', htime⟩

theorem Known.write (h : s.Known t r) (e : Entity) (t₀ : Instant) : (s.write e t₀).1.Known t r := by
  rcases write_versions s e t₀ with hv | hv
  · exact h.congr hv
  · obtain ⟨vs, hvs, w, hw, hup⟩ := known_iff.1 h
    refine known_iff.2 ?_
    rw [hv, Table.get?_insert]
    split
    · rename_i hr
      subst hr
      have hold : w ∈ (s.versions.get? e.reference).getD [] := by
        rw [hvs]
        exact hw
      obtain ⟨w', hw', htime⟩ := exists_mem_putVersion (v := ⟨t₀, e⟩) hold
      exact ⟨_, rfl, w', hw', htime ▸ hup⟩
    · exact ⟨vs, hvs, w, hw, hup⟩

theorem known_write_self (s : Store) (e : Entity) (t : Instant) :
    (s.write e t).1.Known t e.reference := by
  unfold write
  cases hchange : s.change? e t with
  | none =>
    unfold change? at hchange
    cases hvisible : s.visible? e.reference t with
    | none => simp [hvisible] at hchange
    | some old => exact ⟨old, hvisible⟩
  | some kind =>
    refine known_iff.2 ⟨_, Table.get?_insert_self .., ⟨t, e⟩, ?_, upTo_refl t⟩
    exact mem_putVersion_self _ _

/-- What is recorded is visible from the time of the observation on. -/
theorem known_foldl_record {o : Snapshot} {os : List Snapshot} (acc : Store × List Commit)
    (ho : o ∈ os) : (os.foldl (record t) acc).1.Known t o.reference := by
  induction os generalizing acc with
  | nil => exact absurd ho List.not_mem_nil
  | cons x rest ih =>
    rcases List.mem_cons.1 ho with rfl | ho
    · refine foldl_record_induction (motive := fun s => s.Known t o.reference) t rest _ ?_ ?_
      · exact (known_write_self acc.1 o.entity t).congr (mergeProfile_versions _ _)
      · exact fun s y _ hs => (hs.write y.entity t).congr (mergeProfile_versions _ _)
    · exact ih _ ho

theorem exists_of_mem_foldl_record {os : List Snapshot} {acc : Store × List Commit} {c : Commit}
    (hc : c ∈ (os.foldl (record t) acc).2) :
    c ∈ acc.2 ∨ ∃ o ∈ os, c.reference = o.reference ∧ c.validTime = t := by
  induction os generalizing acc with
  | nil => exact .inl hc
  | cons x rest ih =>
    rcases ih hc with hx | ⟨o, ho, hcommit⟩
    · rcases List.mem_append.1 hx with hold | hnew
      · exact .inl hold
      · have hwrite := commit_of_write (Option.mem_toList.1 hnew)
        exact .inr ⟨x, List.mem_cons_self, hwrite⟩
    · exact .inr ⟨o, List.mem_cons_of_mem _ ho, hcommit⟩

theorem known_of_mem_result {o : Observation} {x : Snapshot} (hx : x ∈ o.result) :
    (s.commit o).1.Known o.validTime x.reference :=
  (known_foldl_record (s, []) hx).congr rfl

theorem known_of_mem_commit {o : Observation} {c : Commit} (hc : c ∈ (s.commit o).2) :
    (s.commit o).1.Known c.validTime c.reference := by
  obtain ⟨x, hx, href, htime⟩ := (exists_of_mem_foldl_record hc).resolve_left List.not_mem_nil
  rw [href, htime]
  exact known_of_mem_result hx

theorem Call.known (h : s.Call s') (hknown : s.Known t r) : s'.Known t r :=
  h.keeps (motive := fun s => s.Known t r) (fun _ e t₀ hs => hs.write e t₀)
    (fun _ _ hversions hs => hs.congr hversions) hknown

end Known

end Store

end ScanGraph
