/-
Written addresses, read back.

The text of an address denotes that address again.  For IPv6 this holds of all
three forms that are written: eight groups, groups with one run of zeros left
out, and an embedded IPv4 address.  Of the run that is left out only matters
that it consists of zeros.

## What is proved

* `V4.parse?_text` and `V6.parse?_text`: the text of an address is read as that address,
  for every address.
* `V4.text_injective`, `V6.text_injective` and `V4.text_ne_text`: so texts tell
  addresses apart, and the text of one family is never that of the other.

The proofs for IPv6 follow the reader from group to group.  It ends where two colons
stand or the text does (`Ends`), and what it has read so far it never takes back, so
that the groups before and after the run of zeros are read one after the other.

## What is left open

Nothing is said about texts that are not those of an address.  The reader takes more
than the printer writes, capital digits and longer runs of zeros among it, and which of
these it takes is only what its definition says.
-/
import ScanGraph.Address
import ScanGraph.Proofs.Text.Reading

namespace ScanGraph.Address

open Text

/-! ## IPv4 -/

namespace V4

section

variable {rest : List Char}

theorem octet?_decimal (b : UInt8) (hrest : Stops Char.isDigit rest) :
    octet? (decimal b.toNat ++ rest) = some (b, rest) := by
  have hdigits : ∀ c ∈ decimal b.toNat, c.isDigit = true := fun c hc => isDigit_of_mem_decimal hc
  have hb : b.toNat < 256 := b.toNat_lt
  have hlength : (decimal b.toNat).length ≤ 3 := length_decimal_le (by decide) (by omega)
  have hnonempty : (decimal b.toNat).isEmpty = false := by
    simpa using decimal_ne_nil b.toNat
  have hzero : ((decimal b.toNat).length > 1 && (decimal b.toNat).head? == some '0') = false := by
    rw [Bool.and_eq_false_iff]
    by_cases hhead : (decimal b.toNat).head? = some '0'
    · left
      rw [head?_decimal hhead]
      decide
    · right
      simpa using hhead
  unfold octet?
  simp only [takeWhile_append_of_stops hdigits hrest, dropWhile_append_of_stops hdigits hrest,
    valueOf_decimal, hnonempty, hzero, Bool.false_or, Bool.or_false]
  rw [if_neg (by simp only [Bool.or_eq_true, decide_eq_true_eq]; omega), UInt8.ofNat_toNat]

theorem dotOctet?_decimal (b : UInt8) (hrest : Stops Char.isDigit rest) :
    dotOctet? ('.' :: (decimal b.toNat ++ rest)) = some (b, rest) :=
  octet?_decimal b hrest

/-- An address is read whatever follows it, if only that is no digit. -/
theorem read?_chars (x : V4) (hrest : Stops Char.isDigit rest) :
    read? (x.chars ++ rest) = some (x, rest) := by
  have hdot {cs : List Char} : Stops Char.isDigit ('.' :: cs) := stops_cons (by decide)
  unfold read? chars
  simp only [List.append_assoc, List.cons_append]
  simp only [octet?_decimal x.a hdot, dotOctet?_decimal x.b hdot, dotOctet?_decimal x.c hdot,
    dotOctet?_decimal x.d hrest, Option.bind_eq_bind, Option.bind_some]

theorem parse?_text (x : V4) : parse? x.text = some x := by
  unfold parse? text
  rw [String.toList_ofList, ← List.append_nil x.chars, read?_chars x stops_nil]

theorem read?_of_stops {cs : List Char} (h : Stops Char.isDigit cs) : read? cs = none := by
  unfold read? octet?
  simp [takeWhile_of_stops h]

theorem read?_of_no_dot {cs : List Char} (h : '.' ∉ cs) : read? cs = none := by
  have hrest : '.' ∉ cs.dropWhile Char.isDigit := fun hmem =>
    h ((List.dropWhile_sublist _).subset hmem)
  unfold read?
  cases hoctet : octet? cs with
  | none => rfl
  | some found =>
    obtain ⟨b, rest⟩ := found
    have hdrop : cs.dropWhile Char.isDigit = rest := by
      unfold octet? at hoctet
      simp only [Option.ite_none_left_eq_some, Option.some.injEq, Prod.mk.injEq] at hoctet
      exact hoctet.2.2
    have hnone : dotOctet? rest = none := by
      cases rest with
      | nil => rfl
      | cons c rest =>
        have hc : c ≠ '.' := fun hc => hrest (hdrop ▸ hc ▸ List.mem_cons_self)
        unfold dotOctet?
        split
        · rename_i heq
          exact absurd (List.cons.inj heq).1 hc
        · rfl
    simp [hnone]

end

end V4

/-! ## IPv6 -/

namespace V6

/-! ### Groups -/

/-- The character is a hexadecimal digit. -/
def isHex (c : Char) : Bool :=
  (hexValue? c).isSome

section Groups

variable {rest : List Char}

theorem isHex_of_mem_groupChars {g : UInt16} {c : Char} (h : c ∈ groupChars g) :
    isHex c = true :=
  isSome_hexValue?_of_mem_toDigits h

theorem group?_groupChars (g : UInt16) (hrest : Stops isHex rest) :
    group? (groupChars g ++ rest) = some (g, rest) := by
  have hdigits : ∀ c ∈ groupChars g, isHex c = true := fun c hc => isHex_of_mem_groupChars hc
  have hg : g.toNat < 65536 := g.toNat_lt
  have hlength : (groupChars g).length ≤ 4 :=
    (Nat.length_toDigits_le_iff (by decide) (by decide)).2 hg
  have hnonempty : (groupChars g).isEmpty = false := by simp [groupChars]
  have hvalue : hexValueOf (groupChars g) = g.toNat := hexValueOf_toDigits g.toNat
  have hrun : (groupChars g ++ rest).takeWhile (fun c => (hexValue? c).isSome) = groupChars g :=
    takeWhile_append_of_stops hdigits hrest
  unfold hexValueOf at hvalue
  unfold group?
  simp only [hrun, hnonempty, hvalue, Bool.false_or]
  rw [if_neg (by simpa using hlength), UInt16.ofNat_toNat, List.drop_left]

theorem group?_of_stops (h : Stops isHex rest) : group? rest = none := by
  have hrun : rest.takeWhile (fun c => (hexValue? c).isSome) = [] := takeWhile_of_stops h
  unfold group?
  simp [hrun]

end Groups

/-- Groups, each with a colon in front. -/
def laterChars (l : List UInt16) : List Char :=
  l.flatMap (fun g => ':' :: groupChars g)

theorem colonChars_cons (g : UInt16) (l : List UInt16) :
    colonChars (g :: l) = groupChars g ++ laterChars l := by
  induction l generalizing g with
  | nil => simp [colonChars, laterChars]
  | cons h l ih => simp [colonChars, ih, laterChars]

section Characters

variable {c : Char}

theorem not_mem_groupChars (hc : isHex c = false) (g : UInt16) : c ∉ groupChars g := by
  intro h
  rw [isHex_of_mem_groupChars h] at hc
  cases hc

theorem not_mem_laterChars (hc : isHex c = false) (hcolon : c ≠ ':') (l : List UInt16) :
    c ∉ laterChars l := by
  intro h
  obtain ⟨g, -, hg⟩ := List.mem_flatMap.1 h
  rcases List.mem_cons.1 hg with heq | hg
  · exact hcolon heq
  · exact not_mem_groupChars hc g hg

/-- Groups and colons are written with hexadecimal digits and colons alone. -/
theorem not_mem_colonChars (hc : isHex c = false) (hcolon : c ≠ ':') (l : List UInt16) :
    c ∉ colonChars l := by
  cases l with
  | nil => exact List.not_mem_nil
  | cons g l =>
    rw [colonChars_cons]
    intro h
    rcases List.mem_append.1 h with h | h
    · exact not_mem_groupChars hc g h
    · exact not_mem_laterChars hc hcolon l h

end Characters

theorem no_dot_groupChars (g : UInt16) : '.' ∉ groupChars g :=
  not_mem_groupChars (by decide) g

theorem no_dot_laterChars (l : List UInt16) : '.' ∉ laterChars l :=
  not_mem_laterChars (by decide) (by decide) l

theorem no_dot_colonChars (l : List UInt16) : '.' ∉ colonChars l :=
  not_mem_colonChars (by decide) (by decide) l

/-! ### Reading groups -/

section ReadGroups

variable {first : Bool} {room : Nat} {cs rest : List Char}

/-- No group follows: the text ends, or two colons stand next. -/
inductive Ends : List Char → Prop
  | nil : Ends []
  | colons (more : List Char) : Ends (':' :: ':' :: more)

theorem Ends.stops (h : Ends rest) : Stops isHex rest := by
  cases h with
  | nil => exact stops_nil
  | colons more => exact stops_cons (by decide)

/-- Where neither a group nor an address follows, nothing is read. -/
theorem readGroups_of_none
    (h : ∀ after ∈ separated? first cs, V4.read? after = none ∧ group? after = none) :
    readGroups first room cs = ([], false, cs) := by
  cases room with
  | zero => rfl
  | succ room =>
    unfold readGroups
    cases hafter : separated? first cs with
    | none => simp
    | some after => simp [h after hafter]

theorem readGroups_of_group (first : Bool) {after : List Char} {g : UInt16}
    (hafter : separated? first cs = some after) (hread : V4.read? after = none)
    (hgroup : group? after = some (g, rest)) :
    readGroups first (room + 1) cs
      = (g :: (readGroups false room rest).1, (readGroups false room rest).2) := by
  conv => lhs; unfold readGroups
  simp [hafter, hread, hgroup]

theorem readGroups_of_ends (first : Bool) (room : Nat) (h : Ends cs) :
    readGroups first room cs = ([], false, cs) := by
  refine readGroups_of_none (fun after hafter => ?_)
  have hstops : Stops isHex after ∧ Stops Char.isDigit after := by
    cases h with
    | nil =>
      cases first with
      | true => cases hafter; exact ⟨stops_nil, stops_nil⟩
      | false => cases hafter
    | colons more =>
      cases first <;> cases hafter <;> exact ⟨stops_cons (by decide), stops_cons (by decide)⟩
  exact ⟨V4.read?_of_stops hstops.2, group?_of_stops hstops.1⟩

theorem readGroups_laterChars {l : List UInt16} (hroom : l.length ≤ room) (hrest : Ends rest)
    (hdot : '.' ∉ rest) : readGroups false room (laterChars l ++ rest) = (l, false, rest) := by
  induction l generalizing room with
  | nil => exact readGroups_of_ends _ _ hrest
  | cons g l ih =>
    obtain ⟨room, rfl⟩ : ∃ n, room = n + 1 := Nat.exists_eq_succ_of_ne_zero (by
      rw [List.length_cons] at hroom; omega)
    have hmore : Stops isHex (laterChars l ++ rest) := by
      cases l with
      | nil => exact hrest.stops
      | cons h l => exact stops_cons (by decide)
    have hnone : V4.read? (groupChars g ++ (laterChars l ++ rest)) = none := by
      refine V4.read?_of_no_dot (fun h => ?_)
      rcases List.mem_append.1 h with h | h
      · exact no_dot_groupChars g h
      · exact (List.mem_append.1 h).elim (no_dot_laterChars l) hdot
    have hcs : laterChars (g :: l) ++ rest = ':' :: (groupChars g ++ (laterChars l ++ rest)) := by
      simp [laterChars]
    rw [hcs, readGroups_of_group false rfl hnone (group?_groupChars g hmore),
      ih (Nat.le_of_succ_le_succ hroom)]

/-- Groups with colons between them are read up to where no group follows. -/
theorem readGroups_colonChars {l : List UInt16} (room : Nat) (hroom : l.length ≤ room)
    (hrest : Ends rest) (hdot : '.' ∉ rest) :
    readGroups true room (colonChars l ++ rest) = (l, false, rest) := by
  cases l with
  | nil => exact readGroups_of_ends _ _ hrest
  | cons g l =>
    obtain ⟨room, rfl⟩ : ∃ n, room = n + 1 := Nat.exists_eq_succ_of_ne_zero (by
      rw [List.length_cons] at hroom; omega)
    have hmore : Stops isHex (laterChars l ++ rest) := by
      cases l with
      | nil => exact hrest.stops
      | cons h l => exact stops_cons (by decide)
    have hnone : V4.read? (groupChars g ++ (laterChars l ++ rest)) = none := by
      refine V4.read?_of_no_dot (fun h => ?_)
      rcases List.mem_append.1 h with h | h
      · exact no_dot_groupChars g h
      · exact (List.mem_append.1 h).elim (no_dot_laterChars l) hdot
    rw [colonChars_cons, List.append_assoc,
      readGroups_of_group true rfl hnone (group?_groupChars g hmore),
      readGroups_laterChars (Nat.le_of_succ_le_succ hroom) hrest hdot]

end ReadGroups

/-! ### The three forms -/

theorem parseGroups?_colonChars {l : List UInt16} (h : l.length = 8) :
    parseGroups? (colonChars l) = some l := by
  have hread := readGroups_colonChars 8 (Nat.le_of_eq h) .nil List.not_mem_nil
  rw [List.append_nil] at hread
  unfold parseGroups?
  rw [hread]
  simp [h]

/-- Two colons stand for the zeros between the groups around them. -/
theorem parseGroups?_colons {head tail : List UInt16} (h : head.length + tail.length ≤ 7) :
    parseGroups? (colonChars head ++ ':' :: ':' :: colonChars tail)
      = some (head ++ List.replicate (8 - head.length - tail.length) 0 ++ tail) := by
  have hdot : '.' ∉ ':' :: ':' :: colonChars tail := by
    simpa using no_dot_colonChars tail
  have hhead := readGroups_colonChars (l := head) 8 (by omega) (.colons (colonChars tail)) hdot
  have htail := readGroups_colonChars (l := tail) (7 - head.length) (by omega) .nil
    List.not_mem_nil
  rw [List.append_nil] at htail
  unfold parseGroups?
  rw [hhead]
  simp only
  rw [if_neg (by omega), htail]
  simp

theorem groupsOf_tailV4 (x y : UInt16) : groupsOf (tailV4 x y) = [x, y] := by
  have hhalves (z : UInt16) : UInt16.ofNat ((UInt8.ofNat (z.toNat / 256)).toNat * 256
      + (UInt8.ofNat (z.toNat % 256)).toNat) = z := by
    have hz : z.toNat < 65536 := z.toNat_lt
    apply UInt16.toNat_inj.1
    simp only [UInt8.toNat_ofNat', UInt16.toNat_ofNat']
    omega
  unfold groupsOf tailV4
  rw [hhalves x, hhalves y]

theorem parseGroups?_mapped (x y : UInt16) :
    parseGroups? ([':', ':', 'f', 'f', 'f', 'f', ':'] ++ (tailV4 x y).chars)
      = some [0, 0, 0, 0, 0, 0xFFFF, x, y] := by
  have hhead := readGroups_of_ends true 8
    (.colons (['f', 'f', 'f', 'f', ':'] ++ (tailV4 x y).chars))
  have hmapped : V4.read? (tailV4 x y).chars = some (tailV4 x y, []) := by
    rw [← List.append_nil (tailV4 x y).chars, V4.read?_chars _ stops_nil]
  have htail : readGroups false 6 (':' :: (tailV4 x y).chars) = ([x, y], true, []) := by
    unfold readGroups
    simp [separated?, hmapped, groupsOf_tailV4]
  have hgroup : group? (['f', 'f', 'f', 'f', ':'] ++ (tailV4 x y).chars)
      = some (0xFFFF, ':' :: (tailV4 x y).chars) :=
    group?_groupChars 0xFFFF (stops_cons (by decide))
  have hnone : V4.read? (['f', 'f', 'f', 'f', ':'] ++ (tailV4 x y).chars) = none :=
    V4.read?_of_stops (stops_cons (by decide))
  have hrest : readGroups true 7 (['f', 'f', 'f', 'f', ':'] ++ (tailV4 x y).chars)
      = ([0xFFFF, x, y], true, []) := by
    rw [readGroups_of_group true rfl hnone hgroup, htail]
  unfold parseGroups?
  rw [show [':', ':', 'f', 'f', 'f', 'f', ':'] ++ (tailV4 x y).chars
    = ':' :: ':' :: (['f', 'f', 'f', 'f', ':'] ++ (tailV4 x y).chars) from rfl, hhead]
  simp only [List.length_nil]
  rw [if_neg (by decide), hrest]
  rfl

/-! ### The run that is left out -/

theorem take_zerosAt (l : List UInt16) : l.take (zerosAt l) = List.replicate (zerosAt l) 0 := by
  have hsplit : l.takeWhile (· == 0) ++ l.dropWhile (· == 0) = l := List.takeWhile_append_dropWhile
  have htake : l.take (zerosAt l) = l.takeWhile (· == 0) := by
    nth_rewrite 2 [← hsplit]
    exact List.take_left
  rw [htake]
  refine List.eq_replicate_iff.2 ⟨rfl, fun g hg => ?_⟩
  exact eq_of_beq (List.all_eq_true.1 List.all_takeWhile g hg)

/-- The run that is found lies in the list and consists of zeros. -/
theorem longestZeros_zeros (i : Nat) (l : List UInt16) :
    ∃ before, (longestZeros i l).1 = i + before ∧
      before + (longestZeros i l).2 ≤ l.length ∧
      (l.drop before).take (longestZeros i l).2 = List.replicate (longestZeros i l).2 0 := by
  induction l generalizing i with
  | nil => exact ⟨0, rfl, Nat.le_refl 0, rfl⟩
  | cons g rest ih =>
    obtain ⟨before, hstart, hlength, hzeros⟩ := ih (i + 1)
    simp only [longestZeros]
    split
    · have hhere : zerosAt (g :: rest) ≤ (g :: rest).length := (List.takeWhile_sublist _).length_le
      exact ⟨0, rfl, by omega, take_zerosAt (g :: rest)⟩
    · exact ⟨before + 1, by omega, by rw [List.length_cons]; omega, hzeros⟩

theorem take_append_zeros {l : List UInt16} {start len : Nat} (hlength : start + len ≤ l.length)
    (hzeros : (l.drop start).take len = List.replicate len 0) :
    l.take start ++ List.replicate (l.length - (l.take start).length
      - (l.drop (start + len)).length) 0 ++ l.drop (start + len) = l := by
  have hlen : l.length - (l.take start).length - (l.drop (start + len)).length = len := by
    rw [List.length_take, List.length_drop]
    omega
  rw [hlen, ← hzeros, ← List.drop_drop, List.append_assoc, List.take_append_drop,
    List.take_append_drop]

/-! ### Addresses -/

theorem length_toList (x : V6) : x.toList.length = 8 :=
  x.groups.toArray.length_toList.trans x.groups.size_toArray

theorem parseGroups?_chars (x : V6) : parseGroups? x.chars = some x.toList := by
  have hlength := length_toList x
  unfold chars
  split
  · rename_i g h hlist
    rw [hlist]
    exact parseGroups?_mapped g h
  · obtain ⟨before, hstart, hinside, hzeros⟩ := longestZeros_zeros 0 x.toList
    rw [Nat.zero_add] at hstart
    simp only [hstart]
    split
    · have hfew : (x.toList.take before).length
          + (x.toList.drop (before + (longestZeros 0 x.toList).2)).length ≤ 7 := by
        rw [List.length_take, List.length_drop]
        omega
      have hparts := parseGroups?_colons hfew
      rw [← hlength, take_append_zeros hinside hzeros] at hparts
      exact hparts
    · exact parseGroups?_colonChars hlength

theorem parse?_text (x : V6) : parse? x.text = some x := by
  unfold parse? text
  rw [String.toList_ofList, parseGroups?_chars, Option.bind_some]
  unfold ofList? toList
  have hsize : x.groups.toList.toArray.size = 8 := length_toList x
  rw [dif_pos hsize]
  rfl

end V6

/-! ## Characters of addresses -/

theorem V4.not_mem_chars {c : Char} (hc : c.isDigit = false) (hdot : c ≠ '.') (x : V4) :
    c ∉ x.chars := by
  have hdecimal : ∀ n, c ∉ decimal n := fun n h => by
    rw [isDigit_of_mem_decimal h] at hc
    cases hc
  simp [V4.chars, hdecimal, hdot]

/-- An IPv6 address is written with hexadecimal digits, colons and dots alone. -/
theorem V6.not_mem_chars {c : Char} (hc : V6.isHex c = false) (hdigit : c.isDigit = false)
    (hcolon : c ≠ ':') (hdot : c ≠ '.') (x : V6) : c ∉ x.chars := by
  have hf : c ≠ 'f' := by
    rintro rfl
    cases hc
  unfold V6.chars
  split
  · simp [V4.not_mem_chars hdigit hdot, hcolon, hf]
  · split
    split
    · simp [V6.not_mem_colonChars hc hcolon, hcolon]
    · exact V6.not_mem_colonChars hc hcolon _

theorem V6.colon_mem_chars (x : V6) : ':' ∈ x.chars := by
  have hlength := V6.length_toList x
  unfold V6.chars
  split
  · exact List.mem_cons_self
  · split
    split
    · simp
    · obtain ⟨g, h, rest, hlist⟩ : ∃ g h rest, x.toList = g :: h :: rest := by
        match hx : x.toList, hlength with
        | g :: h :: rest, _ => exact ⟨g, h, rest, rfl⟩
      rw [hlist]
      simp [V6.colonChars]

theorem V4.text_ne_text (x : V4) (y : V6) : x.text ≠ y.text := by
  intro h
  have hchars : x.chars = y.chars := String.ofList_injective h
  exact V4.not_mem_chars (by decide) (by decide) x (hchars ▸ V6.colon_mem_chars y)

/-! ## Telling addresses apart -/

theorem V4.text_injective {x y : V4} (h : x.text = y.text) : x = y := by
  have hread := V4.parse?_text x
  rw [h, V4.parse?_text y] at hread
  exact (Option.some.inj hread).symm

theorem V6.text_injective {x y : V6} (h : x.text = y.text) : x = y := by
  have hread := V6.parse?_text x
  rw [h, V6.parse?_text y] at hread
  exact (Option.some.inj hread).symm

end ScanGraph.Address
