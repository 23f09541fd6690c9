/-
Written identifiers, read back.

The hyphens stand where the groups of digits end, so taking them out gives the
digits again, and the digits spell the number that was written: `parse?_text`.

Every identifier is covered, the first and the last among them, as any 128 bits are one.
The text is in lower case with the hyphens at four places; other forms that are read,
such as those without hyphens or with braces around them, are described by the reader's
definition alone.

That the identifiers which a pipeline takes are different from each other is no
statement about texts.  Where it matters it is asked of the run at hand, as whoever
makes them is outside of what is modelled.
-/
import ScanGraph.Uuid
import ScanGraph.Proofs.Text.Reading

namespace ScanGraph.Uuid

theorem length_hexDigits (n width : Nat) : (hexDigits n width).length = width := by
  induction width with
  | zero => rfl
  | succ width ih => rw [hexDigits, List.length_cons, ih]

theorem hexNumber?_hexDigits (m n width : Nat) :
    hexNumber? m (hexDigits n width) = some (m * 16 ^ width + n % 16 ^ width) := by
  induction width generalizing m with
  | zero => simp [hexDigits, hexNumber?, Nat.mod_one]
  | succ width ih =>
    have hdigit : Text.hexValue? (Nat.digitChar (n / 16 ^ width % 16))
        = some (n / 16 ^ width % 16) :=
      Text.hexValue?_digitChar (Nat.mod_lt _ (by decide))
    have hvalue : (16 * m + n / 16 ^ width % 16) * 16 ^ width + n % 16 ^ width
        = m * 16 ^ (width + 1) + n % 16 ^ (width + 1) := by
      rw [Nat.mod_pow_succ, Nat.pow_succ]
      ring
    simp only [hexDigits, hexNumber?, Nat.pow_eq, hdigit, ih, hvalue]

/-! ## Hyphens -/

theorem length_hyphenate {groups : List Nat} (hne : groups ≠ []) {cs : List Char}
    (h : cs.length = groups.sum) :
    (hyphenate groups cs).length + 1 = cs.length + groups.length := by
  induction groups generalizing cs with
  | nil => exact absurd rfl hne
  | cons width groups ih =>
    rw [List.sum_cons] at h
    cases groups with
    | nil =>
      have hwidth : cs.length = width := by simpa using h
      simp [hyphenate, hwidth]
    | cons width' groups =>
      have hrest : (cs.drop width).length = (width' :: groups).sum := by
        rw [List.length_drop]
        omega
      have hmore := ih (List.cons_ne_nil _ _) hrest
      rw [List.length_drop] at hmore
      simp only [hyphenate, List.length_append, List.length_take, List.length_cons] at hmore ⊢
      omega

theorem unhyphenate?_hyphenate {groups : List Nat} (hne : groups ≠ []) {cs : List Char}
    (h : cs.length = groups.sum) : unhyphenate? groups (hyphenate groups cs) = some cs := by
  induction groups generalizing cs with
  | nil => exact absurd rfl hne
  | cons width groups ih =>
    rw [List.sum_cons] at h
    cases groups with
    | nil =>
      have hall : cs.take width = cs := List.take_of_length_le (by simpa using h.le)
      have hwidth : cs.length = width := by simpa using h
      simp [hyphenate, unhyphenate?, hall, hwidth]
    | cons width' groups =>
      have hfirst : (cs.take width).length = width := by
        rw [List.length_take]
        omega
      have hrest : (cs.drop width).length = (width' :: groups).sum := by
        rw [List.length_drop]
        omega
      have hcut : (cs.take width ++ '-' :: hyphenate (width' :: groups) (cs.drop width)).drop width
          = '-' :: hyphenate (width' :: groups) (cs.drop width) :=
        List.drop_left' hfirst
      have hkept : (cs.take width ++ '-' :: hyphenate (width' :: groups) (cs.drop width)).take width
          = cs.take width :=
        List.take_left' hfirst
      rw [hyphenate]
      · unfold unhyphenate?
        simp only [hcut, hkept, ih (List.cons_ne_nil _ _) hrest, Option.map_some,
          List.take_append_drop]
      · exact fun h => absurd h (List.cons_ne_nil _ _)

/-! ## Texts -/

theorem parse?_text (u : Uuid) : parse? u.text = some u := by
  have hlength : (hexDigits u.value.val 32).length = groups.sum := length_hexDigits _ _
  have hwhole : (hyphenate groups (hexDigits u.value.val 32)).length = 36 := by
    have hsum := length_hyphenate (List.cons_ne_nil _ _) hlength
    rw [hlength] at hsum
    exact Nat.succ.inj hsum
  have hdigits : digits? u.text.toList = some (hexDigits u.value.val 32) := by
    unfold digits? text
    rw [String.toList_ofList, if_neg (by omega), if_pos hwhole]
    exact unhyphenate?_hyphenate (List.cons_ne_nil _ _) hlength
  have hnumber : hexNumber? 0 (hexDigits u.value.val 32) = some u.value.val := by
    rw [hexNumber?_hexDigits, Nat.zero_mul, Nat.zero_add]
    exact congrArg some (Nat.mod_eq_of_lt u.value.isLt)
  unfold parse?
  rw [hdigits, Option.bind_some, hnumber]
  show some (ofNat u.value.val) = some u
  have hback : (⟨u.value.val % count, Nat.mod_lt _ (by decide)⟩ : Fin count) = u.value :=
    Fin.ext (Nat.mod_eq_of_lt u.value.isLt)
  exact congrArg (fun v => some (Uuid.mk v)) hback

end ScanGraph.Uuid
