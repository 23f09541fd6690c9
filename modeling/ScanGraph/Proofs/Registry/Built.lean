/-
What a built registry guarantees.

`Draft.build` accepts a draft only if nothing is wrong with it, so every rule of
the registry that it gives was checked, and no two have one id.

What else a built registry has follows from the checks: its rules stand under their ids,
the paths of each start at the type of its roots and end at the types of its parameters
(`paths_of_faults`), and there is one scanner and one normalizer for an id
(`nodup_scanner_ids`, `pairwise_normalizer_ids`).

`build_eq_ok_iff` says which registry it is, so that it can be computed for a draft at
hand.  Which drafts are accepted, in terms of the calls that made them, is
`Registry.Consistency`.  A registry that was put together by hand has none of these
properties.
-/
import ScanGraph.Proofs.Table.Canonical
import ScanGraph.Registry

namespace ScanGraph

theorem faultUnless_eq_nil_iff {ok : Bool} {fault : RegistryFault} :
    faultUnless ok fault = [] ↔ ok = true := by
  unfold faultUnless
  cases ok <;> simp

/-- Where nothing is wrong with a list of declarations, nothing is wrong with any of them. -/
theorem faults_of_definitionFaults {seen : List String} {ds : List PluginDefinition}
    (h : definitionFaults seen ds = []) : ∀ d ∈ ds, d.faults = [] := by
  induction ds generalizing seen with
  | nil => exact fun _ hd => absurd hd List.not_mem_nil
  | cons d ds ih =>
    obtain ⟨hhead, hrest⟩ := List.append_eq_nil_iff.1 h
    exact List.forall_mem_cons.2 ⟨(List.append_eq_nil_iff.1 hhead).2, ih hrest⟩

namespace RuleDefinition

section

variable {d : RuleDefinition}

theorem pathFaults_of_parameterFaults {seen : List String} {ps : List RuleParameter}
    (h : d.parameterFaults seen ps = []) : ∀ p ∈ ps, d.pathFaults p = [] := by
  induction ps generalizing seen with
  | nil => exact fun _ hp => absurd hp List.not_mem_nil
  | cons p ps ih =>
    obtain ⟨hhead, hrest⟩ := List.append_eq_nil_iff.1 h
    exact List.forall_mem_cons.2 ⟨(List.append_eq_nil_iff.1 hhead).2, ih hrest⟩

/-- The paths of a rule with which nothing is wrong start at the type of its roots and end at the
types of the parameters. -/
theorem paths_of_faults (h : d.faults = []) : ∀ p ∈ d.parameters,
    d.consumes.isA p.path.root = true ∧ p.type.overlaps p.path.endType = true := by
  intro p hp
  obtain ⟨hfront, -⟩ := List.append_eq_nil_iff.1 h
  have hparameters := (List.append_eq_nil_iff.1 hfront).2
  have hpath := pathFaults_of_parameterFaults hparameters p hp
  obtain ⟨hstart, hend⟩ := List.append_eq_nil_iff.1 hpath
  exact ⟨faultUnless_eq_nil_iff.1 hstart, faultUnless_eq_nil_iff.1 hend⟩

end

end RuleDefinition

namespace Registry

/-- Values that are put under keys of their own stand under these alone. -/
theorem mem_values_of_get?_key {α : Type} (key : α → String) {l : List α} {k : String} {v : α}
    (h : (Table.ofList (l.map (fun x => (key x, x)))).get? k = some v) :
    v ∈ (Table.ofList (l.map (fun x => (key x, x)))).values ∧ key v = k := by
  have hentry := Table.mem_entries_of_get? h
  obtain ⟨x, -, hx⟩ :=
    List.mem_map.1 ((Table.mem_foldl_insert hentry).resolve_left List.not_mem_nil)
  obtain ⟨rfl, rfl⟩ := Prod.mk.inj hx
  exact ⟨List.mem_map_of_mem hentry, rfl⟩

section

variable {d : Draft} {r : Registry} {rule : RegisteredRule}

theorem build_eq_ok_iff : d.build = .ok r ↔ d.faults = [] ∧ d.registry = r := by
  unfold Draft.build
  split
  · rename_i hfaults
    simp [hfaults]
  · rename_i hfaults
    constructor
    · intro h
      cases h
    · exact fun h => absurd h.1 hfaults

theorem faults_of_build (h : d.build = .ok r) (hrule : rule ∈ r.rules.values) :
    rule.definition.faults = [] := by
  obtain ⟨hfaults, rfl⟩ := build_eq_ok_iff.1 h
  have hdefinitions := (List.append_eq_nil_iff.1 hfaults).2
  obtain ⟨entry, hentry, rfl⟩ := List.mem_map.1 (Table.mem_values_ofList hrule)
  obtain ⟨x, hx, rfl⟩ := List.mem_map.1 hentry
  refine faults_of_definitionFaults hdefinitions (.rule x.definition) ?_
  exact List.mem_append_right _ (List.mem_map_of_mem hx)

theorem get?_id_of_build (h : d.build = .ok r) (hrule : rule ∈ r.rules.values) :
    r.rules.get? rule.id = some rule := by
  obtain ⟨-, rfl⟩ := build_eq_ok_iff.1 h
  exact Table.get?_key_of_mem_values RegisteredRule.id hrule

theorem get?_eq_some_iff_of_build (h : d.build = .ok r) {id : String} :
    r.rules.get? id = some rule ↔ rule ∈ r.rules.values ∧ rule.id = id := by
  constructor
  · intro hget
    obtain ⟨-, rfl⟩ := build_eq_ok_iff.1 h
    exact mem_values_of_get?_key RegisteredRule.id hget
  · rintro ⟨hrule, rfl⟩
    exact get?_id_of_build h hrule

theorem get?_scanner_of_build (h : d.build = .ok r) {s : RegisteredScanner}
    (hs : s ∈ r.scanners.values) : r.scanners.get? s.definition.id = some s := by
  obtain ⟨-, rfl⟩ := build_eq_ok_iff.1 h
  exact Table.get?_key_of_mem_values (fun x : RegisteredScanner => x.definition.id) hs

theorem get?_normalizer_of_build (h : d.build = .ok r) {n : RegisteredNormalizer}
    (hn : n ∈ r.normalizers.values) : r.normalizers.get? n.definition.id = some n := by
  obtain ⟨-, rfl⟩ := build_eq_ok_iff.1 h
  exact Table.get?_key_of_mem_values (fun x : RegisteredNormalizer => x.definition.id) hn

/-- The normalizers of a built registry are in order of their ids. -/
theorem pairwise_normalizer_ids (h : d.build = .ok r) :
    (r.normalizers.values.map (fun n => n.definition.id)).Pairwise (· < ·) := by
  obtain ⟨-, rfl⟩ := build_eq_ok_iff.1 h
  have hkeys := Table.map_key_values (fun x : RegisteredNormalizer => x.definition.id) d.normalizers
  exact hkeys ▸ List.pairwise_map.2 (Table.ascending_ofList _)

theorem nodup_scanner_ids (h : d.build = .ok r) :
    (r.scanners.values.map (fun s => s.definition.id)).Nodup := by
  obtain ⟨-, rfl⟩ := build_eq_ok_iff.1 h
  have hkeys := Table.map_key_values (fun x : RegisteredScanner => x.definition.id) d.scanners
  exact hkeys ▸ (Table.ascending_ofList _).nodup_keys

theorem eq_of_id (h : d.build = .ok r) {x y : RegisteredRule} (hx : x ∈ r.rules.values)
    (hy : y ∈ r.rules.values) (hid : x.id = y.id) : x = y := by
  have hget := get?_id_of_build h hx
  rw [hid, get?_id_of_build h hy] at hget
  exact (Option.some.inj hget).symm

end

end Registry

end ScanGraph
