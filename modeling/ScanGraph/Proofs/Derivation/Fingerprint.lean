/-
What a fingerprint is taken of.

The canonical text of an evaluation says what fixes it and nothing else: the
rule, the object that is its root, the objects of every parameter as a set, and
the settings.  Two evaluations have the same octets exactly if they agree in all
of these: `octets_eq_iff`.

## What is asked, and what is not

`Entity.Ordered` says that the settings of a configuration object list their keys in
order, which every table does that was made from a list.  It is asked of the roots
alone, because the slots are compared by the texts of their objects.

The statement is about octets, not about digests.  That no two of them have one digest
is nobody's to prove; where it matters it is a hypothesis, and there it is asked only of
the octets that were hashed in the run at hand.  Whether the settings are those that the
rule will use, and the objects those that it will see, is for whoever takes the
fingerprint.
-/
import ScanGraph.Derivation.Cache
import ScanGraph.Proofs.Entity.Fields

namespace ScanGraph

/-- Two slots hold the objects of the same parameter, in whatever order, however often and with
whatever clearance and time. -/
def Slot.Agrees (a b : Slot) : Prop :=
  a.parameter = b.parameter ∧
    ∀ e, e ∈ a.objects.map Snapshot.entity ↔ e ∈ b.objects.map Snapshot.entity

namespace Fingerprint

open Json

/-! ## Slots -/

section Slots

variable {a b : Slot}

theorem slotTexts_eq (s : Slot) : slotTexts s
    = .ofList ((s.objects.map Snapshot.entity).map (fun e => e.toJson.render)) := by
  rw [List.map_map]
  rfl

/-- Slots have the same texts exactly if they have the same objects. -/
theorem slotTexts_eq_iff : slotTexts a = slotTexts b ↔
    ∀ e, e ∈ a.objects.map Snapshot.entity ↔ e ∈ b.objects.map Snapshot.entity := by
  rw [slotTexts_eq, slotTexts_eq]
  exact SortedSet.ofList_map_eq_iff (fun _ _ => Entity.render_toJson_injective)

theorem texts_injective {s t : SortedSet String} (h : s.texts = t.texts) : s = t := by
  have hlist : s.toList = t.toList :=
    List.map_injective_iff.2 faithful_text.injective (Json.arr.inj h)
  exact congrArg SortedSet.mk hlist

theorem slotJson_eq_iff : slotJson a = slotJson b ↔ a.Agrees b := by
  unfold slotJson Slot.Agrees
  rw [← slotTexts_eq_iff]
  constructor
  · intro h
    obtain ⟨hparameter, hmore⟩ := List.cons.inj (Json.arr.inj h)
    exact ⟨Json.str.inj hparameter, texts_injective (List.cons.inj hmore).1⟩
  · rintro ⟨hparameter, htexts⟩
    rw [hparameter, htexts]

theorem contextJson_eq_iff {c c' : RuleContext} :
    Json.list slotJson c = Json.list slotJson c' ↔ List.Forall₂ Slot.Agrees c c' := by
  induction c generalizing c' with
  | nil => cases c' <;> simp [Json.list]
  | cons s c ih =>
    cases c' with
    | nil => simp [Json.list]
    | cons s' c' =>
      simp only [Json.list, Json.arr.injEq] at ih
      simp [Json.list, ih, slotJson_eq_iff]

theorem fits_slotJson (s : Slot) (room : Nat) : fits (room + 2) (slotJson s) = true := by
  have htexts : ∀ v ∈ (slotTexts s).toList.map Json.str, fits room v = true := by
    intro v hv
    obtain ⟨text, -, rfl⟩ := List.mem_map.1 hv
    rfl
  have hitems : itemsFit room ((slotTexts s).toList.map Json.str) = true := itemsFit_iff.2 htexts
  simp [slotJson, SortedSet.texts, Json.list, fits, itemsFit, hitems]

end Slots

/-! ## The canonical form -/

section Canonical

variable {rule rule' : String} {root root' : Snapshot} {context context' : RuleContext}
  {settings settings' : RuleSettings}

theorem fits_canonical (h : root.entity.Ordered) :
    fits maxDepth (canonical rule root context settings) = true := by
  have hslots : itemsFit (maxDepth - 2) (context.map slotJson) = true := by
    refine itemsFit_iff.2 (fun v hv => ?_)
    obtain ⟨s, -, rfl⟩ := List.mem_map.1 hv
    exact fits_slotJson s (maxDepth - 4)
  have hcontext : fits (maxDepth - 1) (Json.list slotJson context) = true := hslots
  have hroot : fits (maxDepth - 1) root.entity.toJson.sorted = true :=
    Entity.fits_sorted_toJson h (maxDepth - 3)
  have hsettings : fits (maxDepth - 1) (.obj (settings.map (fun _ v => Json.str v)).entries)
      = true :=
    fits_texts settings (maxDepth - 2)
  have hrule : fits (maxDepth - 1) (.str rule) = true := rfl
  have hmembers : ∀ m ∈ [("rule", Json.str rule), ("root", root.entity.toJson.sorted),
      ("context", Json.list slotJson context),
      ("config", .obj (settings.map (fun _ v => Json.str v)).entries)],
      fits (maxDepth - 1) m.2 = true := by
    simp [hrule, hroot, hcontext, hsettings]
  exact membersFit_iff.2 hmembers

theorem canonical_eq_iff (h : root.entity.Ordered) (h' : root'.entity.Ordered) :
    canonical rule root context settings = canonical rule' root' context' settings' ↔
      rule = rule' ∧ root.entity = root'.entity ∧
        List.Forall₂ Slot.Agrees context context' ∧ settings = settings' := by
  have hroot : root.entity.toJson.sorted = root'.entity.toJson.sorted ↔
      root.entity = root'.entity :=
    ⟨Entity.sorted_toJson_injective h h', fun heq => by rw [heq]⟩
  simp [canonical, hroot, contextJson_eq_iff, texts_inj]

theorem canonical_of_octets (h : root.entity.Ordered) (h' : root'.entity.Ordered)
    (hoctets : octets rule root context settings = octets rule' root' context' settings') :
    canonical rule root context settings = canonical rule' root' context' settings' :=
  render_injective (fits_canonical h) (fits_canonical h') (Text.octets_injective hoctets)

/-- The octets of two evaluations are the same exactly if the rules, the objects that are their
roots, the sets of objects of their parameters and the settings are. -/
theorem octets_eq_iff (h : root.entity.Ordered) (h' : root'.entity.Ordered) :
    octets rule root context settings = octets rule' root' context' settings' ↔
      rule = rule' ∧ root.entity = root'.entity ∧
        List.Forall₂ Slot.Agrees context context' ∧ settings = settings' := by
  rw [← canonical_eq_iff h h']
  constructor
  · exact canonical_of_octets h h'
  · intro hcanonical
    unfold octets
    rw [hcanonical]

end Canonical

/-! ## Objects listed twice -/

namespace Sample

/-- The settings of a rule on a network. -/
def settings : Table String String :=
  .ofList [("threshold", "2"), ("limit", "\"10\"")]

/-- A configuration object, with the given clearance. -/
def root (profile : Option Profile) : Snapshot :=
  ⟨.config (.ofTokens .network ["internet"]) "ports" settings, profile, none⟩

/-- A port of an address, in the given state. -/
def port (state : Option PortState) : Snapshot :=
  .ofEntity (.ipPort (.ofTokens .ipv4 ["internet", "127.0.0.1"]) .tcp 80 state)

def slot (ports : List Snapshot) : Slot :=
  ⟨"ports", .ipPort, ports⟩

theorem ordered_root (profile : Option Profile) : (root profile).entity.Ordered := by
  show settings.Ascending
  unfold Table.Ascending
  decide +kernel

theorem octets_eq_iff_listed_twice :
    (root none).entity.Ordered ∧
      octets "ports" (root none) [slot [port none, port (some .opened)]] settings
        = octets "ports" (root (some (.empty (root none).reference)))
          [slot [(port (some .opened)).declare .l2, port none, port (some .opened)]] settings ∧
      octets "ports" (root none) [slot [port none]] settings
        ≠ octets "ports" (root none) [slot [port (some .opened)]] settings := by
  have hroot := ordered_root none
  refine ⟨hroot, (octets_eq_iff hroot (ordered_root _)).2 ?_, fun h => ?_⟩
  · refine ⟨rfl, rfl, .cons ⟨rfl, fun e => ?_⟩ .nil, rfl⟩
    simp only [slot, Snapshot.declare, List.map_cons, List.map_nil, List.mem_cons,
      List.not_mem_nil, or_false]
    tauto
  · obtain ⟨-, -, hcontext, -⟩ := (octets_eq_iff hroot hroot).1 h
    cases hcontext with
    | cons hslot hmore =>
      have hmem := (hslot.2 (port none).entity).1 (List.mem_singleton_self _)
      exact absurd hmem (by decide)

end Sample

end Fingerprint

end ScanGraph
