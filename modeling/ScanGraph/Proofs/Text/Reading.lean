/-
Written texts, read back: digits, octets and the pieces between separators.

The digits of a number spell that number, and the run of digits at the
beginning of a text ends where something else begins, so a written number is
read back whatever stands after it: `takeWhile_append_of_stops`,
`valueOf_decimal`, `hexValueOf_toDigits`.  No digit is a
blank.  Octets are read back from their hexadecimal text, and texts are told apart
by their octets.

What is not blank stays when blanks are trimmed, and trimming once is enough:
`trimWhere_trimWhere`.  The pieces between separators have no separator in them,
so pieces that are trimmed and joined again are cut in the same places:
`splitOn_join_trimmed`.  Cutting a text and joining texts without separators undo
each other: `join_pieces`, `pieces_join`.

## What is left open

Each statement is about what was written by the functions here.  That a reader takes
other texts as well, such as digits with zeros in front or capital ones, is neither used
nor excluded.  Blanks are those of the text's character set, of which the blanks of
single octets are a part (`Text.Blank`).

The statements about pieces hold for any separator.  The empty text has one piece, and
so has a text without the separator, which is why a list of no texts is the one that is
not cut back into itself (`pieces_join` asks for it).
-/
import Mathlib.Data.Nat.Digits.Lemmas
import ScanGraph.Text.Blank
import ScanGraph.Text.Digits
import ScanGraph.Text.Octets

namespace ScanGraph.Text

/-! ## Where a run ends -/

section Runs

variable {α : Type} {p : α → Bool} {run rest : List α}

/-- The list does not begin with an element satisfying `p`. -/
def Stops (p : α → Bool) (rest : List α) : Prop :=
  ∀ a ∈ rest.head?, p a = false

theorem stops_nil : Stops p [] :=
  fun _ h => absurd h (Option.not_mem_none _)

theorem stops_cons {a : α} (h : p a = false) : Stops p (a :: rest) := by
  intro b hb
  obtain rfl : a = b := Option.some.inj hb
  exact h

theorem takeWhile_of_stops (h : Stops p rest) : rest.takeWhile p = [] := by
  cases rest with
  | nil => rfl
  | cons a rest => exact List.takeWhile_cons_of_neg (by simp [h a rfl])

theorem dropWhile_of_stops (h : Stops p rest) : rest.dropWhile p = rest := by
  cases rest with
  | nil => rfl
  | cons a rest => exact List.dropWhile_cons_of_neg (by simp [h a rfl])

theorem takeWhile_append_of_stops (hrun : ∀ a ∈ run, p a = true) (hrest : Stops p rest) :
    (run ++ rest).takeWhile p = run := by
  rw [List.takeWhile_append_of_pos hrun, takeWhile_of_stops hrest, List.append_nil]

theorem dropWhile_append_of_stops (hrun : ∀ a ∈ run, p a = true) (hrest : Stops p rest) :
    (run ++ rest).dropWhile p = rest := by
  rw [List.dropWhile_append_of_pos hrun, dropWhile_of_stops hrest]

end Runs

/-! ## Decimal digits -/

theorem valueOf_decimal (n : Nat) : valueOf (decimal n) = n :=
  Nat.ofDigitChars_ten_toDigits

theorem decimalText_injective {m n : Nat} (h : decimalText m = decimalText n) : m = n := by
  have hdigits : decimal m = decimal n := String.ofList_injective h
  rw [← valueOf_decimal m, hdigits, valueOf_decimal n]

theorem isDigit_of_mem_decimal {n : Nat} {c : Char} (h : c ∈ decimal n) : c.isDigit = true :=
  Nat.isDigit_of_mem_toDigits (by decide) (by decide) h

theorem decimal_ne_nil (n : Nat) : decimal n ≠ [] :=
  Nat.toDigits_ne_nil

theorem length_decimal_le {n k : Nat} (hk : 0 < k) (h : n < 10 ^ k) : (decimal n).length ≤ k :=
  (Nat.length_toDigits_le_iff (by decide) hk).2 h

theorem head?_decimal {n : Nat} (h : (decimal n).head? = some '0') : n = 0 := by
  induction n using Nat.strongRecOn with
  | ind n ih =>
    unfold decimal at h ih
    rw [Nat.toDigits_eq_if (by decide)] at h
    split at h
    · rename_i hlt
      exact Nat.digitChar_eq_zero.1 (Option.some.inj h)
    · rename_i hge
      rw [List.head?_append_of_ne_nil _ Nat.toDigits_ne_nil] at h
      have hzero := ih (n / 10) (by omega) h
      omega

/-! ## Hexadecimal digits -/

theorem hexValue?_digitChar {d : Nat} (h : d < 16) : hexValue? (Nat.digitChar d) = some d := by
  have hall : ∀ d < 16, hexValue? (Nat.digitChar d) = some d := by decide
  exact hall d h

/-- The number that hexadecimal digits spell, most significant first. -/
def hexValueOf (cs : List Char) : Nat :=
  cs.foldl (fun n c => 16 * n + (hexValue? c).getD 0) 0

theorem hexValueOf_toDigits (n : Nat) : hexValueOf (Nat.toDigits 16 n) = n := by
  induction n using Nat.strongRecOn with
  | ind n ih =>
    rw [Nat.toDigits_eq_if (by decide)]
    split
    · rename_i hlt
      simp [hexValueOf, hexValue?_digitChar hlt]
    · rename_i hge
      have hrest : hexValueOf (Nat.toDigits 16 (n / 16)) = n / 16 := ih (n / 16) (by omega)
      have hlast : hexValue? (Nat.digitChar (n % 16)) = some (n % 16) :=
        hexValue?_digitChar (by omega)
      unfold hexValueOf at hrest ⊢
      rw [List.foldl_append, hrest, List.foldl_cons, List.foldl_nil, hlast, Option.getD_some]
      omega

theorem isSome_hexValue?_of_mem_toDigits {n : Nat} {c : Char} (h : c ∈ Nat.toDigits 16 n) :
    (hexValue? c).isSome = true := by
  induction n using Nat.strongRecOn with
  | ind n ih =>
    rw [Nat.toDigits_eq_if (by decide)] at h
    split at h
    · rename_i hlt
      rw [List.mem_singleton.1 h, hexValue?_digitChar hlt]
      rfl
    · rename_i hge
      rcases List.mem_append.1 h with h | h
      · exact ih (n / 16) (by omega) h
      · rw [List.mem_singleton.1 h, hexValue?_digitChar (by omega)]
        rfl

/-! ## Blanks -/

theorem hexValue?_of_isBlank {c : Char} (h : isBlank c = true) : hexValue? c = none := by
  have hrange (low high : Char) (hlow : 0x21 ≤ low.toNat) (hhigh : high.toNat < 0x80) :
      ¬ (low ≤ c ∧ c ≤ high) := by
    rintro ⟨hl, hh⟩
    have hl' : low.toNat ≤ c.toNat := hl
    have hh' : c.toNat ≤ high.toNat := hh
    simp only [isBlank, Bool.or_eq_true, Bool.and_eq_true, decide_eq_true_eq,
      beq_iff_eq] at h
    omega
  unfold hexValue?
  rw [if_neg (hrange '0' '9' (by decide) (by decide)),
    if_neg (hrange 'a' 'f' (by decide) (by decide)),
    if_neg (hrange 'A' 'F' (by decide) (by decide))]

theorem isDigit_of_isBlank {c : Char} (h : isBlank c = true) : c.isDigit = false := by
  rw [Bool.eq_false_iff]
  intro hdigit
  have hhex : hexValue? c = some (c.toNat - '0'.toNat) := by
    unfold hexValue?
    refine if_pos ?_
    simpa [Char.isDigit, Char.le_def] using hdigit
  rw [hexValue?_of_isBlank h] at hhex
  cases hhex

/-! ## Octets -/

theorem ofHex?_flatMap_hexOctet (bs : List UInt8) : ofHex? (bs.flatMap hexOctet) = some bs := by
  induction bs with
  | nil => rfl
  | cons b bs ih =>
    have hb : b.toNat < 256 := b.toNat_lt
    have hhigh : hexValue? (Nat.digitChar (b.toNat / 16)) = some (b.toNat / 16) :=
      hexValue?_digitChar (by omega)
    have hlow : hexValue? (Nat.digitChar (b.toNat % 16)) = some (b.toNat % 16) :=
      hexValue?_digitChar (by omega)
    have hsum : 16 * (b.toNat / 16) + b.toNat % 16 = b.toNat := by omega
    rw [List.flatMap_cons]
    simp only [hexOctet, List.cons_append, List.nil_append, ofHex?, hhigh, hlow, ih, hsum,
      UInt8.ofNat_toNat]

theorem hex_injective {a b : List UInt8} (h : hex a = hex b) : a = b := by
  have hchars : a.flatMap hexOctet = b.flatMap hexOctet := String.ofList_injective h
  have hread := ofHex?_flatMap_hexOctet a
  rw [hchars, ofHex?_flatMap_hexOctet b] at hread
  exact (Option.some.inj hread).symm

theorem toList_loop (bs : ByteArray) (i : Nat) (read : List UInt8) :
    ByteArray.toList.loop bs i read = read.reverse ++ bs.data.toList.drop i := by
  fun_induction ByteArray.toList.loop bs i read with
  | case1 i read hi ih =>
    have hlength : i < bs.data.toList.length := by simpa using hi
    have hget : bs.get! i = bs.data.toList[i] := by simp [ByteArray.get!, hi]
    rw [ih, List.drop_eq_getElem_cons hlength, hget, List.reverse_cons, List.append_assoc]
    rfl
  | case2 i read hi =>
    have hlength : bs.data.toList.length ≤ i := by simpa using hi
    rw [List.drop_eq_nil_of_le hlength, List.append_nil]

theorem octets_injective {s t : String} (h : octets s = octets t) : s = t := by
  unfold octets ByteArray.toList at h
  rw [toList_loop, toList_loop] at h
  have hdata : s.toUTF8.data = t.toUTF8.data := Array.toList_inj.1 (by simpa using h)
  exact String.toByteArray_inj.1 (ByteArray.ext hdata)

/-! ## Trimming -/

section Trimming

variable {α : Type} {p : α → Bool} {l : List α}

theorem mem_dropWhile_of_not {a : α} (ha : a ∈ l) (hp : p a = false) : a ∈ l.dropWhile p := by
  have hsplit : a ∈ l.takeWhile p ++ l.dropWhile p := by rwa [List.takeWhile_append_dropWhile]
  refine (List.mem_append.1 hsplit).resolve_left (fun htake => ?_)
  have hall : p a = true := List.all_eq_true.1 List.all_takeWhile a htake
  exact absurd (hall.symm.trans hp) (by decide)

theorem mem_trimWhere_of_not {a : α} (ha : a ∈ l) (hp : p a = false) : a ∈ trimWhere p l := by
  unfold trimWhere
  rw [List.mem_reverse]
  refine mem_dropWhile_of_not ?_ hp
  rw [List.mem_reverse]
  exact mem_dropWhile_of_not ha hp

theorem mem_of_mem_trimWhere {a : α} (ha : a ∈ trimWhere p l) : a ∈ l := by
  unfold trimWhere at ha
  rw [List.mem_reverse] at ha
  have hinner := (List.dropWhile_sublist p).mem ha
  rw [List.mem_reverse] at hinner
  exact (List.dropWhile_sublist p).mem hinner

theorem trimEndWhere_of_stops (h : Stops p l.reverse) : trimEndWhere p l = l := by
  unfold trimEndWhere
  rw [dropWhile_of_stops h, List.reverse_reverse]

theorem trimWhere_of_stops (h : Stops p l) (h' : Stops p l.reverse) : trimWhere p l = l := by
  unfold trimWhere
  rw [dropWhile_of_stops h, dropWhile_of_stops h', List.reverse_reverse]

theorem stops_dropWhile (p : α → Bool) (l : List α) : Stops p (l.dropWhile p) := by
  intro a ha
  have hhead := List.head?_dropWhile_not p l
  rw [Option.mem_def.1 ha] at hhead
  exact hhead

theorem stops_reverse_trimWhere (p : α → Bool) (l : List α) : Stops p (trimWhere p l).reverse := by
  unfold trimWhere
  rw [List.reverse_reverse]
  exact stops_dropWhile p _

theorem stops_trimWhere (p : α → Bool) (l : List α) : Stops p (trimWhere p l) := by
  -- what is left starts as the list did after the blanks at its start were dropped
  obtain ⟨rest, hrest⟩ : trimWhere p l <+: l.dropWhile p := by
    have hsuffix := List.dropWhile_suffix p (l := (l.dropWhile p).reverse)
    exact List.reverse_suffix.1 (by rwa [trimWhere, List.reverse_reverse])
  intro a ha
  refine stops_dropWhile p l a ?_
  rw [← hrest, List.head?_append, Option.mem_def.1 ha]
  rfl

theorem trimWhere_trimWhere (p : α → Bool) (l : List α) :
    trimWhere p (trimWhere p l) = trimWhere p l :=
  trimWhere_of_stops (stops_trimWhere p l) (stops_reverse_trimWhere p l)

end Trimming

/-! ## Cutting -/

section Cutting

variable {α : Type} [DecidableEq α] {sep : α} {l piece : List α} {p : α → Bool}

theorem not_mem_of_mem_splitOn (h : piece ∈ l.splitOn sep) : sep ∉ piece := by
  induction l generalizing piece with
  | nil =>
    rw [List.splitOn_nil, List.mem_singleton] at h
    exact h ▸ List.not_mem_nil
  | cons a l ih =>
    rw [List.splitOn_cons_eq_if_modifyHead] at h
    split at h
    · rcases List.mem_cons.1 h with rfl | h
      · exact List.not_mem_nil
      · exact ih h
    · rename_i ha
      obtain ⟨first, rest, hsplit⟩ := List.exists_cons_of_ne_nil (List.splitOn_ne_nil sep l)
      rw [hsplit, List.modifyHead_cons] at h
      rcases List.mem_cons.1 h with rfl | h
      · have hfirst : sep ∉ first := ih (hsplit ▸ List.mem_cons_self)
        intro hmem
        rcases List.mem_cons.1 hmem with heq | hmem
        · exact ha (beq_iff_eq.2 heq.symm)
        · exact hfirst hmem
      · exact ih (hsplit ▸ List.mem_cons_of_mem _ h)

/-- Pieces that are trimmed and joined are cut where they were joined. -/
theorem splitOn_join_trimmed (p : α → Bool) (sep : α) (l : List α) :
    ([sep].intercalate ((l.splitOn sep).map (trimWhere p))).splitOn sep
      = (l.splitOn sep).map (trimWhere p) := by
  refine List.splitOn_intercalate sep (fun piece hpiece hmem => ?_) ?_
  · obtain ⟨whole, hwhole, rfl⟩ := List.mem_map.1 hpiece
    exact not_mem_of_mem_splitOn hwhole (mem_of_mem_trimWhere hmem)
  · exact fun hnil => List.splitOn_ne_nil sep l (List.map_eq_nil_iff.1 hnil)

end Cutting

section Pieces

variable {c : Char} {sep s piece : String} {l : List String}

theorem pieces_ne_nil (c : Char) (s : String) : pieces c s ≠ [] :=
  fun h => List.splitOn_ne_nil c s.toList (List.map_eq_nil_iff.1 h)

theorem not_mem_of_mem_pieces (h : piece ∈ pieces c s) : c ∉ piece.toList := by
  obtain ⟨cs, hcs, rfl⟩ := List.mem_map.1 h
  rw [String.toList_ofList]
  exact not_mem_of_mem_splitOn hcs

theorem join_pieces (hsep : sep.toList = [c]) (s : String) : join sep (pieces c s) = s := by
  apply String.toList_injective
  have hchars : String.toList ∘ String.ofList = id := funext fun _ => String.toList_ofList
  rw [join, pieces, String.toList_intercalate, hsep, List.map_map, hchars, List.map_id,
    List.intercalate_splitOn]

/-- Joined texts are cut where they were joined, if none of them has the separator. -/
theorem splitOn_join (hsep : sep.toList = [c]) (hne : l ≠ []) (h : ∀ s ∈ l, c ∉ s.toList) :
    (join sep l).toList.splitOn c = l.map String.toList := by
  rw [join, String.toList_intercalate, hsep]
  refine List.splitOn_intercalate c (fun cs hcs => ?_) (by simpa using hne)
  obtain ⟨s, hs, rfl⟩ := List.mem_map.1 hcs
  exact h s hs

theorem pieces_join (hsep : sep.toList = [c]) (hne : l ≠ []) (h : ∀ s ∈ l, c ∉ s.toList) :
    pieces c (join sep l) = l := by
  have hchars : String.ofList ∘ String.toList = id := funext fun _ => String.ofList_toList
  rw [pieces, splitOn_join hsep hne h, List.map_map, hchars, List.map_id]

theorem join_eq_empty_iff (hsep : sep ≠ "") : join sep l = "" ↔ l = [] ∨ l = [""] := by
  cases l with
  | nil => simp [join]
  | cons s l =>
    cases l with
    | nil => simp [join]
    | cons s' l => simp [join, hsep]

end Pieces

end ScanGraph.Text
