/-
Paths, read back from their text.

The text of a step is the part that it was read from, without the blanks around
it, so the text of a path is the text it was read from without the blanks around
its parts: `text_of_parse`.  Reading does not mind those blanks, so a path is
read from its own text again: `parse_text`.  Its steps follow one another from
the root on, which is what makes reversing a path twice give the path.

## What is proved

For every text that is read as a path: its text is the parts between the dots without
the blanks around them, joined by dots; that text is read as the same path; the first
step starts at the root, each of the others where the one before it ends; reversing it
twice gives it back; and reversing it swaps its two ends and keeps the lowest of the
bounds of its edges.

## What is not

Paths that were put together by hand need not satisfy any of this, and a reversed path
is one of those: its text need not be read as it.  Which texts are read is not described
otherwise than by the reader.  What a walk along a path finds is `Proofs.Store.Walk` and
`Proofs.Store.Chains`.
-/
import ScanGraph.Proofs.Derivation.Firewall
import ScanGraph.Proofs.Store.Walk
import ScanGraph.Proofs.Text.Reading

namespace ScanGraph

/-! ## Names and steps -/

theorem Relation.name_of_find? {holder : ObjectType} {name : String} {r : Relation}
    (h : find? holder name = some r) : r.name = name := by
  unfold find? at h
  have hfound := List.find?_some h
  exact eq_of_beq (Bool.and_eq_true_iff.1 hfound).1

theorem Step.flip_flip (step : Step) : step.flip.flip = step := by
  obtain ⟨direction, relation, near, far⟩ := step
  cases direction <;> rfl

/-! ## The lowest bound -/

namespace Level

section Lowest

variable {bounds bounds' : List (Option Level)} {b c : Level}

theorem lowest?_eq_none_iff : lowest? bounds = none ↔ ∀ c, some c ∉ bounds := by
  induction bounds with
  | nil => simp [lowest?]
  | cons bound bounds ih =>
    cases bound with
    | none => simp [lowest?, ih]
    | some b =>
      constructor
      · intro h
        cases h
      · exact fun h => absurd List.mem_cons_self (h b)

theorem mem_of_lowest? (h : lowest? bounds = some b) : some b ∈ bounds := by
  induction bounds generalizing b with
  | nil => cases h
  | cons bound bounds ih =>
    cases bound with
    | none => exact List.mem_cons_of_mem _ (ih h)
    | some c =>
      cases hrest : lowest? bounds with
      | none =>
        have hb : c = b := by simpa [lowest?, hrest] using h
        exact hb ▸ List.mem_cons_self
      | some d =>
        have hb : lower c d = b := by simpa [lowest?, hrest] using h
        unfold lower at hb
        split at hb
        · exact hb ▸ List.mem_cons_self
        · exact List.mem_cons_of_mem _ (ih (hb ▸ hrest))

theorem le_of_lowest? (h : lowest? bounds = some b) (hc : some c ∈ bounds) : b ≤ c := by
  have hwithin : b.Within (lowest? bounds) := by
    rw [h, within_some]
    exact le_refl b
  exact within_lowest?_iff.1 hwithin (some c) hc c rfl

theorem lowest?_reverse (bounds : List (Option Level)) :
    lowest? bounds.reverse = lowest? bounds := by
  cases h : lowest? bounds with
  | none =>
    rw [lowest?_eq_none_iff] at h ⊢
    exact fun c hc => h c (List.mem_reverse.1 hc)
  | some b =>
    cases h' : lowest? bounds.reverse with
    | none => exact absurd (List.mem_reverse.2 (mem_of_lowest? h)) (lowest?_eq_none_iff.1 h' b)
    | some c =>
      have hle : c ≤ b := le_of_lowest? h' (List.mem_reverse.2 (mem_of_lowest? h))
      have hge : b ≤ c := le_of_lowest? h (List.mem_reverse.1 (mem_of_lowest? h'))
      rw [le_antisymm hle hge]

end Lowest

end Level

namespace Path

/-! ## The text of a step -/

section Steps

variable {current : ObjectType} {cs name type : List Char} {step : Step}

theorem incomingParts?_eq_some (h : incomingParts? cs = some (name, type)) :
    cs = '<' :: (name ++ '[' :: 'i' :: 's' :: ' ' :: (type ++ [']'])) := by
  unfold incomingParts? at h
  split at h
  · rename_i rest
    dsimp only at h
    split at h
    · rename_i more hmore
      split at h
      · rename_i hform
        obtain ⟨rfl, rfl⟩ := Prod.mk.inj (Option.some.inj h)
        have hclose : more.dropWhile Char.isAlphanum = [']'] :=
          eq_of_beq (Bool.and_eq_true_iff.1 hform).2
        rw [← hclose, List.takeWhile_append_dropWhile, ← hmore, List.takeWhile_append_dropWhile]
      · cases h
    · cases h
  · cases h

theorem text_of_readStep (h : readStep current cs = .ok step) : step.text.toList = cs := by
  unfold readStep at h
  split at h
  · rename_i name type hparts
    split at h
    · cases h
    · rename_i holder hholder
      unfold incomingStep at h
      split at h
      · cases h
      · rename_i r hfind
        split at h
        · cases h
          rw [incomingParts?_eq_some hparts]
          simp [Step.text, Relation.name_of_find? hfind, ObjectType.name_of_ofName? hholder]
        · cases h
  · split at h
    · unfold outgoingStep at h
      split at h
      · cases h
      · rename_i r hfind
        cases h
        simp [Step.text, Relation.name_of_find? hfind]
    · cases h

end Steps

/-! ## The text of a path -/

section Texts

variable {current : ObjectType} {parts : List (List Char)} {steps : List Step} {s : String}
  {p : Path}

/-- A part without the blanks around it. -/
def trimPart (part : List Char) : List Char :=
  Text.trimWhere Text.isBlank part

theorem text_of_readSteps (h : readSteps current parts = .ok steps) :
    steps.map (fun step => step.text.toList) = parts.map trimPart := by
  induction parts generalizing current steps with
  | nil =>
    cases h
    rfl
  | cons part rest ih =>
    unfold readSteps at h
    split at h
    · cases h
    · rename_i step hstep
      split at h
      · cases h
      · rename_i more hmore
        cases h
        rw [List.map_cons, List.map_cons, text_of_readStep hstep, ih hmore]
        rfl

theorem text_of_readParts (h : readParts parts = .ok p) :
    p.root.name.toList :: p.steps.map (fun step => step.text.toList) = parts.map trimPart := by
  unfold readParts at h
  split at h
  · cases h
  · rename_i first rest
    dsimp only at h
    split at h
    · cases h
    · rename_i root hroot
      split at h
      · cases h
      · rename_i steps hsteps
        cases h
        rw [List.map_cons, text_of_readSteps hsteps, ObjectType.name_of_ofName? hroot,
          String.toList_ofList]
        rfl

theorem readSteps_trimmed (current : ObjectType) (parts : List (List Char)) :
    readSteps current (parts.map trimPart) = readSteps current parts := by
  induction parts generalizing current with
  | nil => rfl
  | cons part rest ih =>
    have htrimmed : Text.trimWhere Text.isBlank (trimPart part)
        = Text.trimWhere Text.isBlank part := Text.trimWhere_trimWhere _ _
    simp only [List.map_cons, readSteps, htrimmed, ih]

theorem readParts_trimmed (parts : List (List Char)) :
    readParts (parts.map trimPart) = readParts parts := by
  cases parts with
  | nil => rfl
  | cons first rest =>
    have htrimmed : Text.trimWhere Text.isBlank (trimPart first)
        = Text.trimWhere Text.isBlank first := Text.trimWhere_trimWhere _ _
    simp only [List.map_cons, readParts, htrimmed, readSteps_trimmed]

theorem toList_text (p : Path) :
    p.text.toList
      = ['.'].intercalate (p.root.name.toList :: p.steps.map (fun step => step.text.toList)) := by
  obtain ⟨root, steps⟩ := p
  unfold text
  rw [String.toList_append]
  generalize root.name.toList = first
  induction steps generalizing first with
  | nil => simp
  | cons step steps ih =>
    have hrest := ih step.text.toList
    simp only [String.toList_join, List.flatMap_map] at hrest ⊢
    rw [List.map_cons, List.intercalate_cons_cons, ← hrest]
    simp

theorem parse_eq_ok_iff : parse s = .ok p ↔ readParts (s.toList.splitOn '.') = .ok p := by
  unfold parse
  split
  · rename_i q hparts
    rw [hparts]
    constructor <;> exact fun h => congrArg Except.ok (Except.ok.inj h)
  · rename_i fault hparts
    rw [hparts]
    constructor <;> exact fun h => nomatch h

theorem toList_text_of_parse (h : parse s = .ok p) :
    p.text.toList = ['.'].intercalate ((s.toList.splitOn '.').map trimPart) := by
  rw [toList_text, text_of_readParts (parse_eq_ok_iff.1 h)]

/-- The text of a path is the text that it was read from, without the blanks around its parts. -/
theorem text_of_parse (h : parse s = .ok p) :
    p.text = Text.join "." ((Text.pieces '.' s).map Text.trim) := by
  apply String.toList_injective
  have htrim : (String.toList ∘ Text.trim) ∘ String.ofList = trimPart := by
    funext part
    simp [Text.trim, trimPart]
  have hdot : ".".toList = ['.'] := rfl
  rw [toList_text_of_parse h, Text.join, String.toList_intercalate, Text.pieces, List.map_map,
    List.map_map, htrim, hdot]

theorem parse_text (h : parse s = .ok p) : parse p.text = .ok p := by
  have hcut : p.text.toList.splitOn '.' = (s.toList.splitOn '.').map trimPart := by
    rw [toList_text_of_parse h]
    exact Text.splitOn_join_trimmed Text.isBlank '.' s.toList
  rw [parse_eq_ok_iff, hcut, readParts_trimmed]
  exact parse_eq_ok_iff.1 h

end Texts

/-! ## Steps that follow one another -/

section Chains

variable {current : ObjectType} {steps : List Step} {p : Path} {s : String}

theorem Leads.near_head {step : Step} (h : Leads current steps) (hstep : steps.head? = some step) :
    step.near = current := by
  cases steps with
  | nil => cases hstep
  | cons first rest =>
    cases hstep
    exact h.1

theorem Leads.isChain (h : Leads current steps) :
    steps.IsChain (fun a b => a.far = b.near) := by
  induction steps generalizing current with
  | nil => exact .nil
  | cons step rest ih =>
    obtain ⟨-, -, hrest⟩ := h
    refine List.isChain_cons.2 ⟨fun next hnext => ?_, ih hrest⟩
    exact (hrest.near_head hnext).symm

/-! ## Walking back -/

theorem firewallBound_reversed (p : Path) : p.reversed.firewallBound = p.firewallBound := by
  have hflip : (fun step : Step => step.relation.firewallBound) ∘ Step.flip
      = fun step => step.relation.firewallBound := rfl
  unfold firewallBound reversed
  rw [List.map_map, hflip, List.map_reverse, Level.lowest?_reverse]

theorem endType_reversed (h : Leads p.root p.steps) : p.reversed.endType = p.root := by
  obtain ⟨root, steps⟩ := p
  cases steps with
  | nil => rfl
  | cons step rest =>
    obtain ⟨hnear, -⟩ := h
    simp [endType, reversed, Step.flip, hnear]

theorem reversed_reversed (h : Leads p.root p.steps) : p.reversed.reversed = p := by
  have hsteps : ((p.steps.reverse.map Step.flip).reverse.map Step.flip) = p.steps := by
    rw [← List.map_reverse, List.reverse_reverse, List.map_map]
    exact (List.map_congr_left (fun step _ => step.flip_flip)).trans (List.map_id _)
  have hroot : p.reversed.endType = p.root := endType_reversed h
  unfold reversed at hroot ⊢
  rw [hroot, hsteps]

end Chains

end Path

end ScanGraph
