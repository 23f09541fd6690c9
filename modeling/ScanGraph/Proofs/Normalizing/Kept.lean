/-
What is kept of what a normalizer returns.

An object is asked for if it is not the one that was scanned and its type is declared
or a subtype of one that is; of the objects that are asked for, the first of every
reference is kept.  What is not asked for does not count when firsts are looked for, so
that it never stands in the way of a later object of the same reference.  A job whose
normalizer returns keeps what is selected so, one whose evidence is malformed keeps
nothing, and any other job fails and says why: `run_exits`.

## What is proved

For every job, registry and evidence, whatever the normalizer of the job does: the exits
are three, each with its result and with what becomes of the job, and there is no other.

* The normalizer returned a list: those are kept that are asked for and come first among
  the objects of their reference that are, and the job is completed.
* It reported that the evidence is malformed: nothing is kept, and the job is completed
  with the report.
* Anything else, which `FailsWith` lists: a normalizer that is not registered, an object
  that cannot be read from the job, a normalizer that fails otherwise or panics.  The
  job fails and says why.

## What is not

What the objects say is the normalizer's own affair.  For the one at hand it is
described in `Proofs.Dns.Closed` and `Proofs.Dns.Answered`.
-/
import ScanGraph.Normalizing

namespace ScanGraph

/-! ## Firsts of their keys -/

section Firsts

variable {α κ : Type} {key : α → κ} {wanted : α → Bool} {seen : List κ}

/-- At a place of a list something is wanted whose key is new, and nothing that is wanted before has
that key. -/
def StandsFirst (key : α → κ) (wanted : α → Bool) (seen : List κ) (l : List α) (i : Nat) : Prop :=
  ∃ a, l[i]? = some a ∧ wanted a = true ∧ key a ∉ seen ∧
    ∀ k < i, ∀ b, l[k]? = some b → wanted b = true → key b ≠ key a

/-- Of a list is kept, in order, what stands at some places. -/
def Picks (l kept : List α) (places : List Nat) : Prop :=
  places.Pairwise (· < ·) ∧ kept.map some = places.map (fun i => l[i]?)

theorem standsFirst_zero {a : α} {l : List α} :
    StandsFirst key wanted seen (a :: l) 0 ↔ wanted a = true ∧ key a ∉ seen := by
  constructor
  · rintro ⟨_, ⟨⟩, hwanted, hseen, -⟩
    exact ⟨hwanted, hseen⟩
  · rintro ⟨hwanted, hseen⟩
    exact ⟨a, rfl, hwanted, hseen, fun k hk => absurd hk (Nat.not_lt_zero k)⟩

theorem standsFirst_succ_of_first {a : α} {l : List α} (hwanted : wanted a = true) {i : Nat} :
    StandsFirst key wanted seen (a :: l) (i + 1) ↔
      StandsFirst key wanted (key a :: seen) l i := by
  constructor
  · rintro ⟨b, hb, hwants, hseen, hfirst⟩
    have hkey : key b ∉ key a :: seen := by
      intro hmem
      rcases List.mem_cons.1 hmem with hsame | hmem
      · exact hfirst 0 (Nat.succ_pos i) a rfl hwanted hsame.symm
      · exact hseen hmem
    exact ⟨b, hb, hwants, hkey, fun k hk => hfirst (k + 1) (Nat.succ_lt_succ hk)⟩
  · rintro ⟨b, hb, hwants, hseen, hfirst⟩
    refine ⟨b, hb, hwants, List.not_mem_of_not_mem_cons hseen, fun k hk c hc hwantc => ?_⟩
    cases k with
    | zero =>
      cases hc
      exact fun hsame => hseen (hsame ▸ List.mem_cons_self)
    | succ k => exact hfirst k (Nat.lt_of_succ_lt_succ hk) c hc hwantc

/-- What is not wanted or has no new key leaves the rest as it is. -/
theorem standsFirst_succ_of_not {a : α} {l : List α} (h : wanted a = true → key a ∈ seen)
    {i : Nat} : StandsFirst key wanted seen (a :: l) (i + 1) ↔ StandsFirst key wanted seen l i := by
  constructor
  · rintro ⟨b, hb, hwants, hseen, hfirst⟩
    exact ⟨b, hb, hwants, hseen, fun k hk => hfirst (k + 1) (Nat.succ_lt_succ hk)⟩
  · rintro ⟨b, hb, hwants, hseen, hfirst⟩
    refine ⟨b, hb, hwants, hseen, fun k hk c hc hwantc => ?_⟩
    cases k with
    | zero =>
      cases hc
      exact fun hsame => hseen (hsame ▸ h hwantc)
    | succ k => exact hfirst k (Nat.lt_of_succ_lt_succ hk) c hc hwantc

/-- Dropping what is not wanted and then repeated keys keeps, in order, what stands first. -/
theorem exists_places [DecidableEq κ] (key : α → κ) (wanted : α → Bool) (seen : List κ)
    (l : List α) :
    ∃ places, Picks l (distinctFrom key seen (l.filter wanted)) places ∧
      ∀ i, i ∈ places ↔ StandsFirst key wanted seen l i := by
  induction l generalizing seen with
  | nil =>
    refine ⟨[], ⟨.nil, rfl⟩, fun i => ⟨fun hi => absurd hi List.not_mem_nil, ?_⟩⟩
    rintro ⟨a, ha, -⟩
    cases ha
  | cons a l ih =>
    have hlater : ∀ {places : List Nat}, places.Pairwise (· < ·) →
        (places.map (· + 1)).Pairwise (· < ·) :=
      fun h => List.pairwise_map.2 (h.imp Nat.succ_lt_succ)
    by_cases hfirst : wanted a = true ∧ key a ∉ seen
    · obtain ⟨places, ⟨hsorted, hkept⟩, hplaces⟩ := ih (key a :: seen)
      refine ⟨0 :: places.map (· + 1), ⟨List.pairwise_cons.2 ⟨fun i hi => ?_, hlater hsorted⟩, ?_⟩,
        fun i => ?_⟩
      · obtain ⟨k, -, rfl⟩ := List.mem_map.1 hi
        exact Nat.succ_pos k
      · simpa [distinctFrom, hfirst, Function.comp_def] using hkept
      · cases i with
        | zero => simpa [standsFirst_zero] using hfirst
        | succ i => simp [standsFirst_succ_of_first hfirst.1, ← hplaces]
    · have hnone : wanted a = true → key a ∈ seen :=
        fun hwanted => Decidable.byContradiction (fun hseen => hfirst ⟨hwanted, hseen⟩)
      obtain ⟨places, ⟨hsorted, hkept⟩, hplaces⟩ := ih seen
      refine ⟨places.map (· + 1), ⟨hlater hsorted, ?_⟩, fun i => ?_⟩
      · have hdrop : distinctFrom key seen ((a :: l).filter wanted)
            = distinctFrom key seen (l.filter wanted) := by
          cases hwanted : wanted a with
          | false => simp [hwanted]
          | true => simp [hwanted, distinctFrom, hnone hwanted]
        simpa [hdrop, Function.comp_def] using hkept
      · cases i with
        | zero => simpa [standsFirst_zero] using hnone
        | succ i => simp [standsFirst_succ_of_not hnone, ← hplaces]

end Firsts

/-! ## What is selected -/

namespace NormalizerDefinition

/-- An object is asked for: it is not the one that was scanned, and its type is declared or a
subtype of one that is. -/
def AsksFor (d : NormalizerDefinition) (input : Reference) (o : Snapshot) : Prop :=
  o.reference ≠ input ∧ ∃ t ∈ d.produces, o.type.isA t = true

/-- At a place of an output stands an object that is asked for, and no object before it that is
asked for has its reference. -/
def Leads (d : NormalizerDefinition) (input : Reference) (output : List Snapshot) (i : Nat) :
    Prop :=
  ∃ o, output[i]? = some o ∧ d.AsksFor input o ∧
    ∀ k < i, ∀ x, output[k]? = some x → d.AsksFor input x → x.reference ≠ o.reference

/-- Of an output are kept, in order, the objects that are asked for and lead those of their
reference. -/
def Selects (d : NormalizerDefinition) (input : Reference) (output kept : List Snapshot) : Prop :=
  ∃ places, Picks output kept places ∧ ∀ i, i ∈ places ↔ d.Leads input output i

theorem asksFor_iff {d : NormalizerDefinition} {input : Reference} {o : Snapshot} :
    (decide (o.reference ≠ input) && d.produces.covers o.type) = true ↔ d.AsksFor input o := by
  unfold AsksFor SortedSet.covers SortedSet.any
  rw [Bool.and_eq_true, decide_eq_true_iff, List.any_eq_true]
  rfl

theorem selects_keep (d : NormalizerDefinition) (input : Reference) (output : List Snapshot) :
    d.Selects input output (d.keep input output) := by
  obtain ⟨places, hpicks, hplaces⟩ := exists_places Snapshot.reference
    (fun o => decide (o.reference ≠ input) && d.produces.covers o.type) [] output
  refine ⟨places, hpicks, fun i => (hplaces i).trans ?_⟩
  unfold StandsFirst Leads
  simp only [asksFor_iff, List.not_mem_nil, not_false_eq_true, true_and]

end NormalizerDefinition

/-! ## The exits of a job -/

namespace NormalizeJob

/-- The normalizer of a job is called on an object and comes to an outcome. -/
structure Calls (j : NormalizeJob) (r : Registry) (evidence : List UInt8)
    (n : RegisteredNormalizer) (input : Snapshot)
    (outcome : Outcome PipelineError (List Snapshot)) : Prop where
  found : r.normalizers.get? j.normalizer.id = some n
  decoded : j.scan.snapshot = .ok input
  returns : n.body j input evidence = outcome

inductive FailsWith (j : NormalizeJob) (r : Registry) (evidence : List UInt8) :
    PipelineError → Prop
  | unknown : r.normalizers.get? j.normalizer.id = none →
      FailsWith j r evidence (.notFound ("normalizer " ++ j.normalizer.id))
  | undecodable {n : RegisteredNormalizer} {e : DecodeError} :
      r.normalizers.get? j.normalizer.id = some n → j.scan.snapshot = .error e →
      FailsWith j r evidence (.serialization e)
  | failed {n : RegisteredNormalizer} {input : Snapshot} {e : PipelineError} :
      j.Calls r evidence n input (.failed e) → (∀ m, e ≠ .malformedInput m) →
      FailsWith j r evidence e
  | panicked {n : RegisteredNormalizer} {input : Snapshot} {m : String} :
      j.Calls r evidence n input (.panicked m) →
      FailsWith j r evidence (.transientRunner ("normalizer panicked: " ++ m))

variable {j : NormalizeJob} {r : Registry} {evidence : List UInt8} {n : RegisteredNormalizer}
  {input : Snapshot}

/-- A job's normalizer returns, or it reports that the evidence is malformed, or there is a reason
why the job fails. -/
theorem exits (j : NormalizeJob) (r : Registry) (evidence : List UInt8) :
    (∃ n input output, j.Calls r evidence n input (.returned output)) ∨
      (∃ n input m, j.Calls r evidence n input (.failed (.malformedInput m))) ∨
      ∃ e, j.FailsWith r evidence e := by
  cases hn : r.normalizers.get? j.normalizer.id with
  | none => exact .inr (.inr ⟨_, .unknown hn⟩)
  | some n =>
    cases hinput : j.scan.snapshot with
    | error e => exact .inr (.inr ⟨_, .undecodable hn hinput⟩)
    | ok input =>
      cases hbody : n.body j input evidence with
      | returned output => exact .inl ⟨n, input, output, hn, hinput, hbody⟩
      | panicked m => exact .inr (.inr ⟨_, .panicked (m := m) ⟨hn, hinput, hbody⟩⟩)
      | failed e =>
        by_cases hmalformed : ∃ m, e = .malformedInput m
        · obtain ⟨m, rfl⟩ := hmalformed
          exact .inr (.inl ⟨n, input, m, hn, hinput, hbody⟩)
        · have hother : ∀ m, e ≠ .malformedInput m := fun m hm => hmalformed ⟨m, hm⟩
          exact .inr (.inr ⟨e, .failed ⟨hn, hinput, hbody⟩ hother⟩)

variable {started ended : Instant}

theorem run_of_calls {outcome : Outcome PipelineError (List Snapshot)}
    (h : Calls { j with life := j.life.start started } r evidence n input outcome) :
    j.run r evidence started ended = conclude { j with life := j.life.start started }
      n.definition input.reference ended outcome := by
  unfold run
  simp only [h.found, h.decoded, h.returns]

theorem run_of_failsWith {e : PipelineError}
    (h : FailsWith { j with life := j.life.start started } r evidence e) :
    j.run r evidence started ended
      = failWith { j with life := j.life.start started } e ended := by
  cases h with
  | unknown hn =>
    unfold run
    simp only [hn]
  | undecodable hn hinput =>
    unfold run
    simp only [hn, hinput]
  | failed hcalls hother =>
    rw [run_of_calls hcalls]
    unfold conclude
    split
    · rename_i hsame; cases hsame
    · rename_i m hsame
      cases hsame
      exact absurd rfl (hother m)
    · rename_i hsame
      cases hsame
      rfl
    · rename_i hsame; cases hsame
  | panicked hcalls =>
    rw [run_of_calls hcalls]
    rfl

/-- Whatever the evidence and whatever its normalizer does: where this returns objects, those that
are selected are kept and the job is completed; where it finds the evidence malformed, nothing is
kept and the job is completed with what it said; and there is nothing else but to fail, with the
error whose wording the job keeps. -/
theorem run_exits (j : NormalizeJob) (r : Registry) (evidence : List UInt8)
    (started ended : Instant) :
    let begun := { j with life := j.life.start started }
    let ran := j.run r evidence started ended
    (∀ n input output, begun.Calls r evidence n input (.returned output) →
      ∃ kept, ran.2 = .ok kept ∧ n.definition.Selects input.reference output kept ∧
        ran.1.life.status = .completed) ∧
    (∀ n input m, begun.Calls r evidence n input (.failed (.malformedInput m)) →
      ran.2 = .ok [] ∧ ran.1.life.status = .completed ∧ ran.1.life.error = some m) ∧
    (∀ e, begun.FailsWith r evidence e →
      ran.2 = .error e ∧ ran.1.life.status = .failed ∧ ran.1.life.error = some e.message) ∧
    ((∃ n input output, begun.Calls r evidence n input (.returned output)) ∨
      (∃ n input m, begun.Calls r evidence n input (.failed (.malformedInput m))) ∨
      ∃ e, begun.FailsWith r evidence e) := by
  intro begun ran
  refine ⟨fun n input output hcalls => ?_, fun n input m hcalls => ?_, fun e hfails => ?_,
    begun.exits r evidence⟩
  · have hran : ran = begun.conclude n.definition input.reference ended (.returned output) :=
      run_of_calls hcalls
    rw [hran]
    exact ⟨_, rfl, n.definition.selects_keep input.reference output, rfl⟩
  · have hran : ran = begun.conclude n.definition input.reference ended
        (.failed (.malformedInput m)) := run_of_calls hcalls
    rw [hran]
    exact ⟨rfl, rfl, rfl⟩
  · have hran : ran = begun.failWith e ended := run_of_failsWith hfails
    rw [hran]
    exact ⟨rfl, rfl, rfl⟩

/-! ## A body that repeats itself -/

namespace Echo

def host (name : String) : Snapshot :=
  .ofEntity (.hostname (Entity.network "internet").reference name)

/-- A normalizer that declares hosts.  It finds empty evidence malformed, cannot bear a single octet,
and of anything else makes its input, a network, a host twice and another host. -/
def normalizer : RegisteredNormalizer where
  definition := ⟨"echo", .ofList ["boefje/dns-records"], .ofList [.hostname]⟩
  body := fun _ input evidence => match evidence with
    | [] => .failed (.malformedInput "not a zone")
    | [_] => .panicked "parser invariant broken"
    | _ => .returned [input, .ofEntity (.network "intranet"), host "www.example.com",
        host "www.example.com", host "ftp.example.com"]

def registry : Registry :=
  (Registry.Draft.empty.addNormalizer normalizer.definition normalizer.body).registry

/-- A job that reads what a scan of a host found. -/
def job : NormalizeJob :=
  .ofScan default (.ofSnapshot default ⟨"dns-records", none⟩ (host "example.com") "acme")
    ⟨"echo", none⟩

/-- The job when its normalizer is called. -/
def begun : NormalizeJob :=
  { job with life := job.life.start default }

def result (evidence : List UInt8) : NormalizeJob × Except PipelineError (List Snapshot) :=
  job.run registry evidence default default

theorem run_exits_echo :
    (∃ output kept, begun.Calls registry [1, 2] normalizer (host "example.com")
        (.returned output) ∧ (result [1, 2]).2 = .ok kept ∧
      normalizer.definition.Selects (host "example.com").reference output kept ∧
      kept = [host "www.example.com", host "ftp.example.com"] ∧
      (result [1, 2]).1.life.status = .completed) ∧
    (begun.Calls registry [] normalizer (host "example.com")
        (.failed (.malformedInput "not a zone")) ∧ (result []).2 = .ok [] ∧
      (result []).1.life.error = some "not a zone") ∧
    ∃ e, begun.FailsWith registry [1] e ∧ (result [1]).2 = .error e ∧
      (result [1]).1.life.error
        = some "Runner failure: normalizer panicked: parser invariant broken" := by
  have hexits (evidence : List UInt8) := run_exits job registry evidence default default
  obtain ⟨hreturned, -, -, -⟩ := hexits [1, 2]
  obtain ⟨-, hmalformed, -, -⟩ := hexits []
  obtain ⟨-, -, hfails, -⟩ := hexits [1]
  refine ⟨?_, ?_, ?_⟩
  · have hcalls : begun.Calls registry [1, 2] normalizer (host "example.com")
        (.returned [host "example.com", .ofEntity (.network "intranet"), host "www.example.com",
          host "www.example.com", host "ftp.example.com"]) := ⟨rfl, rfl, rfl⟩
    obtain ⟨kept, hkept, hselects, hcompleted⟩ := hreturned _ _ _ hcalls
    have hhosts : (result [1, 2]).2.toOption
        = some [host "www.example.com", host "ftp.example.com"] := by
      decide +kernel
    refine ⟨_, kept, hcalls, hkept, hselects, ?_, hcompleted⟩
    unfold result at hhosts
    rw [hkept] at hhosts
    exact Option.some.inj hhosts
  · have hcalls : begun.Calls registry [] normalizer (host "example.com")
        (.failed (.malformedInput "not a zone")) := ⟨rfl, rfl, rfl⟩
    obtain ⟨hnone, -, herror⟩ := hmalformed _ _ _ hcalls
    exact ⟨hcalls, hnone, herror⟩
  · have hcalls : begun.Calls registry [1] normalizer (host "example.com")
        (.panicked "parser invariant broken") := ⟨rfl, rfl, rfl⟩
    have hpanicked : begun.FailsWith registry [1]
        (.transientRunner "normalizer panicked: parser invariant broken") := .panicked hcalls
    obtain ⟨herror, -, hmessage⟩ := hfails _ hpanicked
    exact ⟨_, hpanicked, herror, hmessage⟩

end Echo

end NormalizeJob

end ScanGraph
