/-
References, read from texts and built from tokens.

A text denotes a reference exactly if it is the name of a concrete type, a bar
and a key that is not empty: `parse_eq_ok_iff`.  Building from tokens checks
nothing.  What is built is still read back from its text unless its type is
abstract or its key is empty, and its tokens are the given ones unless there is
none or one of them has a bar: `parses_ofTokens_iff`, `tokens_ofTokens_iff`.  An
empty token counts at any place, but alone it makes an empty key.  But for that,
reading and building are inverse to each other: `parse_ofTokens_inverse`.

## What is proved

For every text and every list of tokens, with the conditions written out in the theorem
and no others: an abstract type, an empty key, no token at all or a bar in a token are
each excluded where they must be, as the two equivalences before it say.

## What is not

Which message is given for a text that denotes nothing is not part of it.  Tokens with a
bar are no error when a reference is built; the reference that comes of them is read
back, but with other tokens.  Whether such a reference stands for an object is a matter
of the keys of objects, `Proofs.Entity.Identity`.
-/
import ScanGraph.Proofs.Entity.Decoding

namespace ScanGraph.Reference

/-! ## The text of a reference -/

section Texts

variable {r : Reference} {k : String}

/-- The text is the name of the type and the tokens, joined at bars. -/
theorem text_eq_join (h : r.key = some k) : r.text = Text.join "|" (r.type.name :: r.tokens) := by
  have hkey : Text.join "|" r.tokens = k := by
    rw [tokens, naturalKey, h, Option.getD_some, Text.join_pieces rfl]
  have hne : r.tokens ≠ [] := Text.pieces_ne_nil _ _
  rw [Text.join, String.intercalate_cons_of_ne_nil hne, ← Text.join, hkey, text, h]

/-- Cut at bars, the text gives the name of the type and the tokens. -/
theorem pieces_text (h : r.key = some k) :
    Text.pieces separator r.text = r.type.name :: r.tokens := by
  rw [text_eq_join h]
  refine Text.pieces_join rfl (List.cons_ne_nil _ _) (fun piece hpiece => ?_)
  rcases List.mem_cons.1 hpiece with rfl | hpiece
  · exact separator_not_mem_name r.type
  · exact Text.not_mem_of_mem_pieces hpiece

end Texts

/-! ## References built from tokens -/

section Built

variable {t : ObjectType} {tokens : List String} {r : Reference} {k : String}

theorem ofTokens_of_ne_nil (hne : tokens ≠ []) :
    ofTokens t tokens = ⟨t, some (Text.join "|" tokens)⟩ :=
  if_neg (fun h => hne (List.isEmpty_iff.1 h))

/-- The tokens stand behind the type, with a bar before each of them. -/
theorem text_ofTokens (t : ObjectType) (tokens : List String) :
    (ofTokens t tokens).text = Text.join "|" (t.name :: tokens) := by
  by_cases hne : tokens = []
  · subst hne
    exact String.intercalate_singleton.symm
  · rw [ofTokens_of_ne_nil hne]
    exact (String.intercalate_cons_of_ne_nil hne).symm

theorem ofTokens_tokens (h : r.key = some k) : ofTokens r.type r.tokens = r :=
  text_injective ((text_ofTokens r.type r.tokens).trans (text_eq_join h).symm)

/-- The tokens are those that the reference was built from, unless there was none or one of them
has a bar. -/
theorem tokens_ofTokens_iff :
    (ofTokens t tokens).tokens = tokens ↔
      tokens ≠ [] ∧ ∀ token ∈ tokens, separator ∉ token.toList := by
  constructor
  · intro h
    rw [← h]
    exact ⟨Text.pieces_ne_nil _ _, fun _ => Text.not_mem_of_mem_pieces⟩
  · rintro ⟨hne, hbars⟩
    rw [ofTokens_of_ne_nil hne]
    exact Text.pieces_join rfl hne hbars

/-- What is built can be read back, unless its type is abstract or its key is empty. -/
theorem parses_ofTokens_iff :
    (ofTokens t tokens).Parses ↔ t.isAbstract = false ∧ tokens ≠ [] ∧ tokens ≠ [""] := by
  rw [parses_iff, ofTokens_type]
  refine and_congr_right (fun _ => ?_)
  by_cases hne : tokens = []
  · subst hne
    simp [ofTokens]
  · have hempty : Text.join "|" tokens = "" ↔ tokens = [""] := by
      rw [Text.join_eq_empty_iff (by decide), or_iff_right hne]
    rw [ofTokens_of_ne_nil hne]
    simp [hne, hempty]

-- a network without a name
example : ¬ (ofTokens .network [""]).Parses := by decide

end Built

/-! ## Texts that denote references -/

section Denoted

variable {s : String} {r : Reference}

/-- A text denotes a reference if it is a concrete type and a key that is not empty, with a bar
between them. -/
theorem parse_eq_ok_iff :
    parse s = .ok r ↔
      ∃ t k, t.isAbstract = false ∧ k ≠ "" ∧ s = t.name ++ "|" ++ k ∧ r = ⟨t, some k⟩ := by
  constructor
  · intro h
    obtain ⟨hconcrete, k, hkey, hk⟩ := parses_iff.1 (parses_of_parse h)
    obtain ⟨t, key⟩ := r
    obtain rfl : key = some k := hkey
    exact ⟨t, k, hconcrete, hk, (text_of_parse h).symm, rfl⟩
  · rintro ⟨t, k, hconcrete, hk, rfl, rfl⟩
    have hparses : Parses ⟨t, some k⟩ := parses_iff.2 ⟨hconcrete, k, rfl, hk⟩
    exact hparses

/-- Reading texts and building from tokens are inverse to each other.  A text denotes a reference
exactly if it is a concrete type and a key that is not empty, with a bar between them.  It is then
the text of that reference, cut at bars into the name of its type and its tokens, and the tokens
build the reference again.  What is built for a concrete type is read back from its text, with the
tokens that it was built from, if there are tokens, none of them has a bar and they are not the
empty one alone. -/
theorem parse_ofTokens_inverse :
    (∀ s : String, (∃ r, parse s = .ok r) ↔
      ∃ (t : ObjectType) (k : String),
        t.isAbstract = false ∧ k ≠ "" ∧ s = t.name ++ "|" ++ k) ∧
    (∀ (t : ObjectType) (k : String), t.isAbstract = false → k ≠ "" →
      ∃ r, parse (t.name ++ "|" ++ k) = .ok r ∧ r.text = t.name ++ "|" ++ k ∧ r.type = t ∧
        Text.pieces separator r.text = t.name :: r.tokens ∧ ofTokens t r.tokens = r) ∧
    ∀ (t : ObjectType) (tokens : List String), t.isAbstract = false → tokens ≠ [] →
      (∀ token ∈ tokens, separator ∉ token.toList) → tokens ≠ [""] →
      parse (ofTokens t tokens).text = .ok (ofTokens t tokens) ∧
        (ofTokens t tokens).tokens = tokens := by
  refine ⟨fun s => ⟨?_, ?_⟩, fun t k hconcrete hk => ?_,
    fun t tokens hconcrete hne hbars hempty => ?_⟩
  · rintro ⟨r, hparse⟩
    obtain ⟨t, k, hconcrete, hk, hs, -⟩ := parse_eq_ok_iff.1 hparse
    exact ⟨t, k, hconcrete, hk, hs⟩
  · rintro ⟨t, k, hconcrete, hk, hs⟩
    exact ⟨⟨t, some k⟩, parse_eq_ok_iff.2 ⟨t, k, hconcrete, hk, hs, rfl⟩⟩
  · have hkey : (⟨t, some k⟩ : Reference).key = some k := rfl
    have hparse : parse (t.name ++ "|" ++ k) = .ok ⟨t, some k⟩ :=
      parse_eq_ok_iff.2 ⟨t, k, hconcrete, hk, rfl, rfl⟩
    exact ⟨⟨t, some k⟩, hparse, text_of_parse hparse, rfl, pieces_text hkey, ofTokens_tokens hkey⟩
  · exact ⟨parses_ofTokens_iff.2 ⟨hconcrete, hne, hempty⟩, tokens_ofTokens_iff.2 ⟨hne, hbars⟩⟩

/-- Tokens are empty at either end and next to each other. -/
theorem parse_ofTokens_inverse_gaps :
    ObjectType.isAbstract .hostname = false ∧ "||a|" ≠ "" ∧
      (∃ r, parse "Hostname|||a|" = .ok r ∧ r.text = "Hostname|||a|" ∧ r.type = .hostname ∧
        Text.pieces separator r.text = "Hostname" :: r.tokens ∧ ofTokens .hostname r.tokens = r) ∧
      ["", "", "a", ""] ≠ [] ∧ (∀ token ∈ ["", "", "a", ""], separator ∉ token.toList) ∧
      ["", "", "a", ""] ≠ [""] ∧
      (ofTokens .hostname ["", "", "a", ""]).text = "Hostname|||a|" ∧
      parse (ofTokens .hostname ["", "", "a", ""]).text
        = .ok (ofTokens .hostname ["", "", "a", ""]) ∧
      (ofTokens .hostname ["", "", "a", ""]).tokens = ["", "", "a", ""] := by
  obtain ⟨-, hread, hbuilt⟩ := parse_ofTokens_inverse
  have hbars : ∀ token ∈ ["", "", "a", ""], separator ∉ token.toList := by decide
  have htext : (ofTokens .hostname ["", "", "a", ""]).text = "Hostname|||a|" := by decide
  obtain ⟨hreread, htokens⟩ :=
    hbuilt .hostname ["", "", "a", ""] rfl (by decide) hbars (by decide)
  exact ⟨rfl, by decide, hread .hostname "||a|" rfl (by decide), by decide, hbars, by decide, htext,
    hreread, htokens⟩

end Denoted

end ScanGraph.Reference
