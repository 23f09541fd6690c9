/-
Which plugins make a registry.

A draft is made by calls, each of which adds a plugin with its body or with the
name of one.  `Consistent` says what calls must be like to make a registry: of
the calls themselves, that every name is that of a body of the right kind and that
no id occurs twice, and of every declaration that it is sound.

`build_ok_iff_consistent` says that these calls and no others make a registry, and
what it then holds: every declaration once, under its id, with its body.  Plugins
are kept by kind and looked up kind by kind, so an id must be new among plugins of
all kinds: two tables with one id would hide a declaration.

## What is proved

For every list of calls: a registry comes of them if and only if they are consistent,
and then it finds every declaration under its id, bound to the body that was supplied or
named, and lists all of them once each.

## What is not

Which faults are reported for calls that are not consistent, and in which order, is not
described; that there is one is.  The table of bodies under names is any table.  Bodies
are never run here, and a declaration that is sound may still be one that its body does
not keep to: what a rule emits is checked when it is evaluated.

The last section carries this over to manifests, which are lists of calls
(`register_eq`, `exists_registry_iff`).
-/
import ScanGraph.Manifest
import ScanGraph.Proofs.Registry.Built

namespace ScanGraph

/-! ## New keys -/

section NewKeys

variable {α κ : Type} {key : α → κ} {seen : List κ} {a : α} {l : List α}

/-- The keys of a list are different from each other and from those seen before. -/
def NewKeys (key : α → κ) (seen : List κ) (l : List α) : Prop :=
  (l.map key).Nodup ∧ ∀ x ∈ l, key x ∉ seen

theorem newKeys_nil : NewKeys key seen [] :=
  ⟨List.nodup_nil, List.forall_mem_nil _⟩

theorem newKeys_cons :
    NewKeys key seen (a :: l) ↔ key a ∉ seen ∧ NewKeys key (key a :: seen) l := by
  rw [NewKeys, NewKeys, List.forall_mem_cons, List.map_cons, List.nodup_cons]
  simp only [List.mem_map, List.mem_cons, not_or, not_exists, not_and]
  constructor
  · rintro ⟨⟨hdiffers, hnodup⟩, ha, hnew⟩
    exact ⟨ha, hnodup, fun x hx => ⟨hdiffers x hx, hnew x hx⟩⟩
  · rintro ⟨ha, hnodup, hnew⟩
    exact ⟨⟨fun x hx => (hnew x hx).1, hnodup⟩, ha, fun x hx => (hnew x hx).2⟩

theorem newKeys_nil_iff : NewKeys key [] l ↔ (l.map key).Nodup :=
  and_iff_left (fun _ _ => List.not_mem_nil)

theorem not_contains_iff [DecidableEq κ] {k : κ} : (!seen.contains k) = true ↔ k ∉ seen := by
  simp

end NewKeys

/-! ## Sound declarations -/

theorem SortedSet.isEmpty_eq_false_iff {α : Type} {s : SortedSet α} :
    s.isEmpty = false ↔ ∃ a, a ∈ s :=
  List.isEmpty_eq_false_iff_exists_mem

def ScannerDefinition.Sound (d : ScannerDefinition) : Prop :=
  ∃ t, t ∈ d.consumes

/-- Normalizers consume something and produce objects of concrete types. -/
structure NormalizerDefinition.Sound (d : NormalizerDefinition) : Prop where
  consumes : ∃ tag, tag ∈ d.consumes
  concrete : ∀ t ∈ d.produces, t.isAbstract = false

/-- Rules produce something.  No parameter is declared twice, the paths start at the type of the
roots or above it, and those of parameters end at types that the parameters may have. -/
structure RuleDefinition.Sound (d : RuleDefinition) : Prop where
  produces : ∃ t, t ∈ d.produces
  names : (d.parameters.map RuleParameter.name).Nodup
  starts : ∀ p ∈ d.parameters, d.consumes.isA p.path.root = true
  ends : ∀ p ∈ d.parameters, p.type.overlaps p.path.endType = true
  config : ∀ path ∈ d.configPath, d.consumes.isA path.root = true

/-- A declaration that fits the schema. -/
def PluginDefinition.Sound : PluginDefinition → Prop
  | scanner d => d.Sound
  | normalizer d => d.Sound
  | rule d => d.Sound

theorem ScannerDefinition.faults_eq_nil_iff {d : ScannerDefinition} : d.faults = [] ↔ d.Sound := by
  rw [faults, faultUnless_eq_nil_iff, Bool.not_eq_true', SortedSet.isEmpty_eq_false_iff]
  rfl

theorem NormalizerDefinition.faults_eq_nil_iff {d : NormalizerDefinition} :
    d.faults = [] ↔ d.Sound := by
  rw [faults, List.append_eq_nil_iff, faultUnless_eq_nil_iff, Bool.not_eq_true',
    SortedSet.isEmpty_eq_false_iff, List.map_eq_nil_iff, List.filter_eq_nil_iff]
  exact ⟨fun h => ⟨h.1, fun t ht => Bool.eq_false_iff.2 (h.2 t ht)⟩,
    fun h => ⟨h.consumes, fun t ht => Bool.eq_false_iff.1 (h.concrete t ht)⟩⟩

namespace RuleDefinition

variable {d : RuleDefinition}

theorem pathFaults_eq_nil_iff {p : RuleParameter} : d.pathFaults p = [] ↔
    d.consumes.isA p.path.root = true ∧ p.type.overlaps p.path.endType = true := by
  rw [pathFaults, List.append_eq_nil_iff, faultUnless_eq_nil_iff, faultUnless_eq_nil_iff]

theorem parameterFaults_eq_nil_iff {seen : List String} {ps : List RuleParameter} :
    d.parameterFaults seen ps = [] ↔ NewKeys RuleParameter.name seen ps ∧
      ∀ p ∈ ps, d.pathFaults p = [] := by
  induction ps generalizing seen with
  | nil => simp [parameterFaults, newKeys_nil]
  | cons p ps ih =>
    rw [parameterFaults, List.append_eq_nil_iff, List.append_eq_nil_iff, ih, newKeys_cons,
      List.forall_mem_cons, faultUnless_eq_nil_iff, not_contains_iff]
    tauto

theorem configFaults_eq_nil_iff :
    d.configFaults = [] ↔ ∀ path ∈ d.configPath, d.consumes.isA path.root = true := by
  unfold configFaults
  cases d.configPath with
  | none => simp
  | some path => simp [faultUnless_eq_nil_iff]

theorem faults_eq_nil_iff : d.faults = [] ↔ d.Sound := by
  simp only [faults, List.append_eq_nil_iff, faultUnless_eq_nil_iff, Bool.not_eq_true',
    SortedSet.isEmpty_eq_false_iff, parameterFaults_eq_nil_iff, configFaults_eq_nil_iff,
    pathFaults_eq_nil_iff, newKeys_nil_iff]
  constructor
  · rintro ⟨⟨hproduces, hnames, hpaths⟩, hconfig⟩
    exact ⟨hproduces, hnames, fun p hp => (hpaths p hp).1, fun p hp => (hpaths p hp).2, hconfig⟩
  · intro h
    exact ⟨⟨h.produces, h.names, fun p hp => ⟨h.starts p hp, h.ends p hp⟩⟩, h.config⟩

end RuleDefinition

theorem PluginDefinition.faults_eq_nil_iff {d : PluginDefinition} : d.faults = [] ↔ d.Sound := by
  cases d with
  | scanner d => exact d.faults_eq_nil_iff
  | normalizer d => exact d.faults_eq_nil_iff
  | rule d => exact d.faults_eq_nil_iff

theorem definitionFaults_eq_nil_iff {seen : List String} {ds : List PluginDefinition} :
    definitionFaults seen ds = [] ↔ NewKeys PluginDefinition.id seen ds ∧ ∀ d ∈ ds, d.Sound := by
  induction ds generalizing seen with
  | nil => simp [definitionFaults, newKeys_nil]
  | cons d ds ih =>
    rw [definitionFaults, List.append_eq_nil_iff, List.append_eq_nil_iff, ih, newKeys_cons,
      List.forall_mem_cons, faultUnless_eq_nil_iff, not_contains_iff,
      PluginDefinition.faults_eq_nil_iff]
    tauto

namespace Registry

/-! ## Calls -/

/-- A call that adds a plugin to a draft. -/
inductive Call
  | scanner (definition : ScannerDefinition) (body : ScannerBody)
  | externalScanner (definition : ScannerDefinition)
  | normalizer (definition : NormalizerDefinition) (body : NormalizerBody)
  | rule (definition : RuleDefinition) (body : RuleBody)
  | withEntrypoint (definition : PluginDefinition) (entrypoint : Option String)
      (table : Entrypoints)

namespace Call

def after (d : Draft) : Call → Draft
  | scanner x body => d.addScanner x (some body)
  | externalScanner x => d.addScanner x none
  | normalizer x body => d.addNormalizer x body
  | rule x body => d.addRule x body
  | withEntrypoint x entrypoint table => d.add x entrypoint table

/-- The declaration that a call supplies. -/
def definition : Call → PluginDefinition
  | scanner x _ => .scanner x
  | externalScanner x => .scanner x
  | normalizer x _ => .normalizer x
  | rule x _ => .rule x
  | withEntrypoint x _ _ => x

/-- The body that a call supplies or names. -/
def body : Call → Option PluginBody
  | scanner _ b => some (.scanner b)
  | externalScanner _ => none
  | normalizer _ b => some (.normalizer b)
  | rule _ b => some (.rule b)
  | withEntrypoint _ none _ => none
  | withEntrypoint _ (some name) table => table.get? name

/-- The name that a call uses is that of a body of the right kind; only scanners do without. -/
def Named : Call → Prop
  | withEntrypoint x none _ => x.kind = .scanner
  | withEntrypoint x (some name) table => ∃ b, table.get? name = some b ∧ b.kind = x.kind
  | _ => True

end Call

def Draft.of (calls : List Call) : Draft :=
  calls.foldl Call.after .empty

structure Consistent (calls : List Call) : Prop where
  named : ∀ c ∈ calls, c.Named
  distinct : (calls.map (fun c => c.definition.id)).Nodup
  sound : ∀ c ∈ calls, c.definition.Sound

def Draft.plugins (d : Draft) : List (PluginDefinition × Option PluginBody) :=
  d.scanners.map (fun x => (.scanner x.definition, x.body.map .scanner))
    ++ d.normalizers.map (fun x => (.normalizer x.definition, some (.normalizer x.body)))
    ++ d.rules.map (fun x => (.rule x.definition, some (.rule x.body)))

/-- The plugins of a registry, each with its body. -/
def plugins (r : Registry) : List (PluginDefinition × Option PluginBody) :=
  Draft.plugins ⟨r.scanners.values, r.normalizers.values, r.rules.values, []⟩

/-- Under the id of a declaration, a registry has this declaration with a body. -/
inductive Binds (r : Registry) : PluginDefinition → Option PluginBody → Prop
  | scanner {x : RegisteredScanner} : r.scanners.get? x.definition.id = some x →
      r.Binds (.scanner x.definition) (x.body.map .scanner)
  | normalizer {x : RegisteredNormalizer} : r.normalizers.get? x.definition.id = some x →
      r.Binds (.normalizer x.definition) (some (.normalizer x.body))
  | rule {x : RegisteredRule} : r.rules.get? x.definition.id = some x →
      r.Binds (.rule x.definition) (some (.rule x.body))

/-! ## What a call does -/

namespace Draft

variable (d : Draft)

theorem map_fst_plugins : d.plugins.map Prod.fst = d.definitions := by
  simp [plugins, definitions, Function.comp_def]

theorem plugins_addScanner (x : ScannerDefinition) (b : Option ScannerBody) :
    (d.addScanner x b).plugins.Perm ((.scanner x, b.map .scanner) :: d.plugins) := by
  simp only [plugins, addScanner, List.map_append, List.append_assoc]
  exact List.perm_middle

theorem plugins_addNormalizer (x : NormalizerDefinition) (b : NormalizerBody) :
    (d.addNormalizer x b).plugins.Perm ((.normalizer x, some (.normalizer b)) :: d.plugins) := by
  simp only [plugins, addNormalizer, List.map_append, ← List.append_assoc]
  exact (List.perm_append_singleton _ _).append_right _

theorem plugins_addRule (x : RuleDefinition) (b : RuleBody) :
    (d.addRule x b).plugins.Perm ((.rule x, some (.rule b)) :: d.plugins) := by
  simp only [plugins, addRule, List.map_append, ← List.append_assoc]
  exact List.perm_append_singleton _ _

theorem plugins_bind {x : PluginDefinition} {b : PluginBody} (h : b.kind = x.kind) (name : String) :
    (d.bind x name b).plugins.Perm ((x, some b) :: d.plugins) := by
  cases x with
  | scanner x =>
    cases b with
    | scanner b => exact d.plugins_addScanner x (some b)
    | _ => cases h
  | normalizer x =>
    cases b with
    | normalizer b => exact d.plugins_addNormalizer x b
    | _ => cases h
  | rule x =>
    cases b with
    | rule b => exact d.plugins_addRule x b
    | _ => cases h

theorem refused_bind (x : PluginDefinition) (name : String) (b : PluginBody) :
    (d.bind x name b).refused = [] ↔ d.refused = [] ∧ b.kind = x.kind := by
  cases x <;> cases b <;>
    simp [bind, addScanner, addNormalizer, addRule, refuse, PluginBody.kind, PluginDefinition.kind]

theorem plugins_after {c : Call} (h : c.Named) :
    (c.after d).plugins.Perm ((c.definition, c.body) :: d.plugins) := by
  cases c with
  | scanner x b => exact d.plugins_addScanner x (some b)
  | externalScanner x => exact d.plugins_addScanner x none
  | normalizer x b => exact d.plugins_addNormalizer x b
  | rule x b => exact d.plugins_addRule x b
  | withEntrypoint x entrypoint table =>
    cases entrypoint with
    | none =>
      cases x with
      | scanner x => exact d.plugins_addScanner x none
      | _ => cases h
    | some name =>
      obtain ⟨b, hb, hkind⟩ := h
      simp only [Call.after, add, Call.body, hb]
      exact d.plugins_bind hkind name

theorem refused_after (c : Call) : (c.after d).refused = [] ↔ d.refused = [] ∧ c.Named := by
  cases c with
  | withEntrypoint x entrypoint table =>
    cases entrypoint with
    | none =>
      cases x <;> simp [Call.after, add, addScanner, refuse, Call.Named, PluginDefinition.kind]
    | some name =>
      cases hb : table.get? name with
      | none => simp [Call.after, add, hb, refuse, Call.Named]
      | some b => simp [Call.after, add, hb, refused_bind, Call.Named]
  | _ => exact (and_iff_left trivial).symm

/-! ## What calls do -/

theorem refused_foldl (calls : List Call) : (calls.foldl Call.after d).refused = [] ↔
    d.refused = [] ∧ ∀ c ∈ calls, c.Named := by
  induction calls generalizing d with
  | nil => simp
  | cons c calls ih => rw [List.foldl_cons, ih, refused_after, List.forall_mem_cons, and_assoc]

theorem plugins_foldl {calls : List Call} (h : ∀ c ∈ calls, c.Named) :
    (calls.foldl Call.after d).plugins.Perm
      (calls.map (fun c => (c.definition, c.body)) ++ d.plugins) := by
  induction calls generalizing d with
  | nil => exact .refl _
  | cons c calls ih =>
    obtain ⟨hc, hcalls⟩ := List.forall_mem_cons.1 h
    exact (ih _ hcalls).trans (((d.plugins_after hc).append_left _).trans List.perm_middle)

theorem plugins_of {calls : List Call} (h : ∀ c ∈ calls, c.Named) :
    (Draft.of calls).plugins.Perm (calls.map (fun c => (c.definition, c.body))) := by
  have hplugins := plugins_foldl .empty h
  rwa [show Draft.empty.plugins = [] from rfl, List.append_nil] at hplugins

theorem definitions_of {calls : List Call} (h : ∀ c ∈ calls, c.Named) :
    (Draft.of calls).definitions.Perm (calls.map Call.definition) := by
  have hplugins := (plugins_of h).map Prod.fst
  rwa [map_fst_plugins, List.map_map] at hplugins

/-- Nothing is wrong with a draft of consistent calls, and with no other. -/
theorem faults_of_eq_nil_iff (calls : List Call) : (Draft.of calls).faults = [] ↔
    Consistent calls := by
  rw [faults, List.append_eq_nil_iff, definitionFaults_eq_nil_iff, newKeys_nil_iff, Draft.of,
    refused_foldl, and_iff_right (a := Draft.empty.refused = []) rfl, ← Draft.of]
  constructor
  · rintro ⟨hnamed, hdistinct, hsound⟩
    have hperm := definitions_of hnamed
    refine ⟨hnamed, ?_, fun c hc => hsound _ (hperm.mem_iff.2 (List.mem_map_of_mem hc))⟩
    have hids := (hperm.map PluginDefinition.id).nodup_iff.1 hdistinct
    rwa [List.map_map] at hids
  · intro h
    have hperm := definitions_of h.named
    refine ⟨h.named, (hperm.map PluginDefinition.id).nodup_iff.2 ?_, fun x hx => ?_⟩
    · rw [List.map_map]
      exact h.distinct
    · obtain ⟨c, hc, rfl⟩ := List.mem_map.1 (hperm.mem_iff.1 hx)
      exact h.sound c hc

end Draft

/-! ## What a registry holds -/

section Built

variable {d : Draft} {r : Registry}

theorem nodup_ids_of_build (h : d.build = .ok r) :
    (d.definitions.map PluginDefinition.id).Nodup := by
  have hfaults := (List.append_eq_nil_iff.1 (build_eq_ok_iff.1 h).1).2
  exact newKeys_nil_iff.1 (definitionFaults_eq_nil_iff.1 hfaults).1

/-- A table of values under keys of their own has the values of the list. -/
theorem perm_values {α : Type} (key : α → String) {l : List α} (h : (l.map key).Nodup) :
    (Table.ofList (l.map (fun x => (key x, x)))).values.Perm l := by
  have hkeys : ((l.map (fun x => (key x, x))).map Prod.fst).Nodup := by
    rwa [List.map_map]
  have hperm := (Table.perm_ofList hkeys).map Prod.snd
  rwa [List.map_map, show Prod.snd ∘ (fun x => (key x, x)) = id from rfl, List.map_id] at hperm

theorem plugins_of_build (h : d.build = .ok r) : r.plugins.Perm d.plugins := by
  have hids := nodup_ids_of_build h
  obtain ⟨-, rfl⟩ := build_eq_ok_iff.1 h
  simp only [Draft.definitions, List.map_append, List.map_map, List.nodup_append] at hids
  obtain ⟨⟨hscanners, hnormalizers, -⟩, hrules, -⟩ := hids
  refine ((List.Perm.map _ ?_).append (List.Perm.map _ ?_)).append (List.Perm.map _ ?_)
  · exact perm_values (fun x : RegisteredScanner => x.definition.id) hscanners
  · exact perm_values (fun x : RegisteredNormalizer => x.definition.id) hnormalizers
  · exact perm_values (fun x : RegisteredRule => x.definition.id) hrules

theorem map_fst_plugins (r : Registry) : r.plugins.map Prod.fst = r.all :=
  Draft.map_fst_plugins _

theorem all_of_build (h : d.build = .ok r) : r.all.Perm d.definitions := by
  have hperm := (plugins_of_build h).map Prod.fst
  rwa [map_fst_plugins, Draft.map_fst_plugins] at hperm

theorem mem_all_of_resolve (h : d.build = .ok r) {id : String} {x : PluginDefinition}
    (hx : r.resolve id = .ok x) : x ∈ r.all ∧ x.id = id := by
  obtain ⟨-, rfl⟩ := build_eq_ok_iff.1 h
  unfold resolve at hx
  split at hx
  · rename_i s _ _ hs
    cases hx
    obtain ⟨hmem, hid⟩ := mem_values_of_get?_key (fun x : RegisteredScanner => x.definition.id) hs
    exact ⟨List.mem_append_left _ (List.mem_append_left _ (List.mem_map_of_mem hmem)), hid⟩
  · rename_i n _ _ hn
    cases hx
    obtain ⟨hmem, hid⟩ :=
      mem_values_of_get?_key (fun x : RegisteredNormalizer => x.definition.id) hn
    exact ⟨List.mem_append_left _ (List.mem_append_right _ (List.mem_map_of_mem hmem)), hid⟩
  · rename_i y _ _ hy
    cases hx
    obtain ⟨hmem, hid⟩ := mem_values_of_get?_key (fun x : RegisteredRule => x.definition.id) hy
    exact ⟨List.mem_append_right _ (List.mem_map_of_mem hmem), hid⟩
  · cases hx

/-- Every plugin of a registry is bound to its body under its id. -/
theorem binds_of_mem_plugins (h : d.build = .ok r) {x : PluginDefinition} {b : Option PluginBody}
    (hx : (x, b) ∈ r.plugins) : r.Binds x b := by
  rcases List.mem_append.1 hx with hx | hx
  · rcases List.mem_append.1 hx with hx | hx
    · obtain ⟨s, hs, heq⟩ := List.mem_map.1 hx
      cases heq
      exact .scanner (get?_scanner_of_build h hs)
    · obtain ⟨n, hn, heq⟩ := List.mem_map.1 hx
      cases heq
      exact .normalizer (get?_normalizer_of_build h hn)
  · obtain ⟨y, hy, heq⟩ := List.mem_map.1 hx
    cases heq
    exact .rule (get?_id_of_build h hy)

theorem Binds.exists_resolve {x : PluginDefinition} {b : Option PluginBody} (h : r.Binds x b) :
    ∃ y, r.resolve x.id = .ok y := by
  unfold resolve
  split
  · exact ⟨_, rfl⟩
  · exact ⟨_, rfl⟩
  · exact ⟨_, rfl⟩
  · rename_i hs hn hr
    cases h with
    | scanner hget => exact absurd (hget.symm.trans hs) (Option.some_ne_none _)
    | normalizer hget => exact absurd (hget.symm.trans hn) (Option.some_ne_none _)
    | rule hget => exact absurd (hget.symm.trans hr) (Option.some_ne_none _)

/-- Under the id of a plugin its own declaration is found, as no other has the id. -/
theorem resolve_of_binds (h : d.build = .ok r) {x : PluginDefinition} {b : Option PluginBody}
    (hx : r.Binds x b) (hmem : x ∈ r.all) : r.resolve x.id = .ok x := by
  obtain ⟨y, hy⟩ := hx.exists_resolve
  obtain ⟨hymem, hid⟩ := mem_all_of_resolve h hy
  have hids : (r.all.map PluginDefinition.id).Nodup :=
    ((all_of_build h).map _).nodup_iff.2 (nodup_ids_of_build h)
  rw [hy, List.inj_on_of_nodup_map hids hymem hmem hid]

end Built

/-- Consistent calls and no others make a registry.  It finds every declaration under its id and has
it bound to the body that was supplied or named; and it lists every declaration once. -/
theorem build_ok_iff_consistent (calls : List Call) :
    ((∃ r, (Draft.of calls).build = .ok r) ↔ Consistent calls) ∧
    ∀ r, (Draft.of calls).build = .ok r →
      (∀ c ∈ calls, r.resolve c.definition.id = .ok c.definition ∧ r.Binds c.definition c.body) ∧
      r.all.Perm (calls.map Call.definition) ∧ r.all.Nodup := by
  refine ⟨?_, fun r h => ?_⟩
  · simp only [build_eq_ok_iff, exists_and_left, Draft.faults_of_eq_nil_iff, exists_eq', and_true]
  · have hconsistent := (Draft.faults_of_eq_nil_iff calls).1 (build_eq_ok_iff.1 h).1
    have hplugins := (plugins_of_build h).trans (Draft.plugins_of hconsistent.named)
    have hall := (all_of_build h).trans (Draft.definitions_of hconsistent.named)
    refine ⟨fun c hc => ?_, hall, ?_⟩
    · have hbinds := binds_of_mem_plugins h (hplugins.mem_iff.2 (List.mem_map_of_mem hc))
      exact ⟨resolve_of_binds h hbinds (hall.mem_iff.2 (List.mem_map_of_mem hc)), hbinds⟩
    · exact hall.nodup_iff.2 (List.Nodup.of_map PluginDefinition.id
        (by rw [List.map_map]; exact hconsistent.distinct))

namespace Trio

def table : Entrypoints :=
  .ofList [("parse", .normalizer (fun _ _ _ => .returned []))]

/-- A rule with its body, a normalizer with the name of one, and a scanner that runs elsewhere. -/
def calls : List Call :=
  [.rule (.plain "derive" .hostname [.network]) (fun _ _ _ => .returned []),
   .withEntrypoint (.normalizer ⟨"normalize", .ofList ["boefje/scan"], .ofList [.hostname]⟩)
     (some "parse") table,
   .externalScanner ⟨"scan", none, .ofList [.hostname], .empty, .l0⟩]

theorem build_calls : (Draft.of calls).build = .ok (Draft.of calls).registry :=
  build_eq_ok_iff.2 ⟨by decide +kernel, rfl⟩

/-- The three make a registry, in which each is found. -/
theorem build_ok_iff_consistent_trio :
    (Draft.of calls).build = .ok (Draft.of calls).registry ∧ Consistent calls ∧
    (∀ c ∈ calls, (Draft.of calls).registry.resolve c.definition.id = .ok c.definition ∧
      (Draft.of calls).registry.Binds c.definition c.body) ∧
    (Draft.of calls).registry.all.Perm (calls.map Call.definition) ∧
    (Draft.of calls).registry.all.Nodup :=
  ⟨build_calls, (build_ok_iff_consistent calls).1.1 ⟨_, build_calls⟩,
    (build_ok_iff_consistent calls).2 _ build_calls⟩

end Trio

end Registry

/-! ## Manifests -/

namespace Manifest

/-- The calls by which the plugins of a manifest are added. -/
def calls (m : Manifest) (table : Entrypoints) : List Registry.Call :=
  m.plugins.map (fun e => .withEntrypoint e.definition e.entrypoint table)

theorem register_eq (m : Manifest) (table : Entrypoints) :
    m.register .empty table = .of (m.calls table) := by
  rw [register, Registry.Draft.of, calls, List.foldl_map]
  rfl

theorem exists_registry_iff (m : Manifest) (table : Entrypoints) :
    (∃ r, m.registry table = .ok r) ↔ Registry.Consistent (m.calls table) := by
  rw [← Registry.Draft.faults_of_eq_nil_iff, ← register_eq, registry, buildAs]
  constructor
  · rintro ⟨r, h⟩
    split at h
    · rename_i r' hbuild
      exact (Registry.build_eq_ok_iff.1 hbuild).1
    · cases h
  · intro h
    rw [Registry.build_eq_ok_iff.2 ⟨h, rfl⟩]
    exact ⟨_, rfl⟩

end Manifest

end ScanGraph
