/-
DNS answers, read back.

An answer is read from its octets as it was written: `ofOctets?_octets`.  Its text
is one line per address, and each line is read as the record that gives the name
that address.  So what a normalizer finds in an answer that lists the addresses
of a host is the host, and for every address its object and its record:
`dnsObjects_octets`.  A name may be written on such lines if it has no blanks, begins
no comment and does not end in a dot.

## What is proved

* `ofOctets?_octets`: every answer is read from its octets as it was written.
* `IsName.ofLine_addressLine`: the line that gives a name an address is read as the
  record which does so.
* `IsName.dnsObjects_octets`: what the normalizer makes of an answer that lists
  addresses.
* `ofOctets?_noSuchName`: the words for a name that does not exist are no answer.

## What is asked of names

A blank would end the name, a semicolon at its beginning would make the line a comment,
and a dot at its end is dropped by the reader.  Nothing else is asked, so that names
which no name server would accept are covered.  Lines of other record types are read,
but what they are read as is not stated here.
-/
import Mathlib
import ScanGraph.Builtin.DnsScan
import ScanGraph.Proofs.Address.Reading
import ScanGraph.Proofs.Json.Reading
import ScanGraph.Proofs.Text.Reading

namespace ScanGraph

namespace Text

/-! ## Octets -/

theorem octets_eq (s : String) : octets s = s.toByteArray.data.toList := by
  unfold octets ByteArray.toList
  rw [toList_loop]
  rfl

theorem ofOctets?_octets (s : String) : ofOctets? (octets s) = some s := by
  have harray : (⟨(octets s).toArray⟩ : ByteArray) = s.toByteArray := by
    rw [octets_eq, Array.toArray_toList]
  unfold ofOctets? String.fromUTF8?
  rw [harray, dif_pos s.isValidUTF8]
  rfl

/-- Octets of seven bits are those of a text of as many characters. -/
theorem octets_ofList {bs : List UInt8} (h : ∀ b ∈ bs, b ≤ 127) :
    octets (String.ofList (bs.map Char.ofUInt8)) = bs := by
  rw [octets_eq, String.toByteArray_ofList]
  induction bs with
  | nil => rfl
  | cons b bs ih =>
    have hsize : (Char.ofUInt8 b).utf8Size = 1 := by
      have hb : b.toNat ≤ 127 := UInt8.le_iff_toNat_le.1 (h b List.mem_cons_self)
      refine Char.utf8Size_eq_one_iff.2 (UInt32.le_iff_toNat_le.2 ?_)
      simpa [Char.ofUInt8] using hb
    have hrest := ih (fun c hc => h c (List.mem_cons_of_mem _ hc))
    rw [List.map_cons, List.utf8Encode_cons, List.utf8Encode_singleton,
      String.utf8EncodeChar_eq_singleton hsize, ByteArray.data_append, Array.toList_append, hrest]
    simp [Char.ofUInt8]

/-! ## Words -/

section Words

variable {w rest : List Char} {c : Char}

/-- A word has characters, and none of them is blank. -/
def IsWord (w : List Char) : Prop :=
  w ≠ [] ∧ ∀ c ∈ w, isBlank c = false

theorem isWord_of_any (hw : w ≠ []) (h : w.any isBlank = false) : IsWord w :=
  ⟨hw, fun c hc => Bool.eq_false_iff.2 (List.any_eq_false.1 h c hc)⟩

theorem words_of_isWord (h : IsWord w) : words w = [w] := by
  have hone : w.splitOnP isBlank = [w] :=
    List.splitOnP_eq_singleton (fun c hc => h.2 c hc)
  unfold words
  rw [hone, List.filter_cons_of_pos (by simp [h.1]), List.filter_nil]

theorem words_append (h : IsWord w) (hc : isBlank c = true) :
    words (w ++ c :: rest) = w :: words rest := by
  have hfirst : (w ++ c :: rest).splitOnP isBlank = w :: rest.splitOnP isBlank :=
    List.splitOnP_append_cons_of_forall_mem (fun c hc => h.2 c hc) c hc rest
  unfold words
  rw [hfirst, List.filter_cons_of_pos (by simp [h.1])]

end Words

end Text

namespace Dns

/-! ## Answers -/

namespace Answer

open Json

theorem run_toJson (a : Answer) :
    run (· == recordsKey) start a.toJson.render.toList = some ⟨[], .finished a.toJson⟩ := by
  have hchars : a.toJson.render.toList = '\x7b' :: '"' :: (recordsKey.toList.flatMap escapeChar
      ++ ['"'] ++ ':' :: '"' :: (a.records.toList.flatMap escapeChar ++ ['"'] ++ ['\x7d'])) := by
    simp [render, toJson, chars, memberChars, textChars]
  have hopen : step (· == recordsKey) ⟨[], .value⟩ '\x7b' = some ⟨[.members [] ""], .firstKey⟩ :=
    rfl
  have hquote : step (· == recordsKey) ⟨[.members [] ""], .firstKey⟩ '"'
      = some ⟨[.members [] ""], .text true .plain []⟩ :=
    rfl
  have hkey : endText [.members [] ""] true recordsKey.toList.reverse
      = some ⟨[.members [] recordsKey], .colon⟩ := by
    simp [endText]
  have hcolon : step (· == recordsKey) ⟨[.members [] recordsKey], .colon⟩ ':'
      = some ⟨[.members [] recordsKey], .value⟩ := by
    simp [step, isSpace, enter]
  have hquote' : step (· == recordsKey) ⟨[.members [] recordsKey], .value⟩ '"'
      = some ⟨[.members [] recordsKey], .text false .plain []⟩ :=
    rfl
  have hvalue : endText [.members [] recordsKey] false a.records.toList.reverse
      = some ⟨[.members [(recordsKey, .str a.records)] ""], .next⟩ := by
    simp [endText, complete]
  rw [hchars, start, run_of_step hopen, run_of_step hquote, run_textChars rfl hkey,
    run_of_step hcolon, run_of_step hquote', run_textChars rfl hvalue]
  rfl

theorem ofOctets?_octets (a : Answer) : ofOctets? a.octets = some a := by
  have hparse : ofOctetsOnly? (· == recordsKey) a.octets = some a.toJson := by
    unfold ofOctetsOnly? octets
    rw [Text.ofOctets?_octets]
    exact (congrArg (Option.bind · result?) a.run_toJson).trans rfl
  unfold ofOctets?
  rw [hparse]
  rfl

/-! ### Evidence that is no answer -/

theorem run_idle {wanted : String → Bool} {cs : List Char}
    (h : ∀ c ∈ cs, (isSpace c || (startValue [] c).isNone) = true) :
    (run wanted start cs).bind result? = none := by
  induction cs with
  | nil => rfl
  | cons c cs ih =>
    have hstep : step wanted start c = if isSpace c then some start else startValue [] c := rfl
    rw [run, hstep]
    split
    · exact ih (fun d hd => h d (List.mem_cons_of_mem _ hd))
    · rename_i hspace
      have hnone : (startValue [] c).isNone = true := by
        simpa [hspace] using h c List.mem_cons_self
      rw [Option.isNone_iff_eq_none.1 hnone]
      rfl

/-- An octet is a character of its own, which starts no value. -/
def IsSilent (b : UInt8) : Prop :=
  b ≤ 127 ∧ (isSpace (Char.ofUInt8 b) || (startValue [] (Char.ofUInt8 b)).isNone) = true

instance (b : UInt8) : Decidable (IsSilent b) :=
  inferInstanceAs (Decidable (_ ∧ _))

theorem isSilent_of_isAsciiBlank {b : UInt8} (h : Text.isAsciiBlank b = true) : IsSilent b := by
  have hall : ∀ b ∈ ([0x20, 9, 10, 12, 13] : List UInt8), IsSilent b := by decide +kernel
  exact hall b (by simpa [Text.isAsciiBlank, or_assoc] using h)

theorem isSilent_of_mem {b : UInt8} (h : b ∈ Builtin.noSuchName) : IsSilent b := by
  have hall : ∀ b ∈ "NXDOMAIN".toByteArray.data.toList, IsSilent b := by decide +kernel
  rw [Builtin.noSuchName, Text.octets_eq] at h
  exact hall b h

theorem ofOctets?_noSuchName {bs : List UInt8}
    (h : Text.trimWhere Text.isAsciiBlank bs = Builtin.noSuchName) : ofOctets? bs = none := by
  have hsilent : ∀ b ∈ bs, IsSilent b := by
    intro b hb
    cases hblank : Text.isAsciiBlank b with
    | true => exact isSilent_of_isAsciiBlank hblank
    | false => exact isSilent_of_mem (h ▸ Text.mem_trimWhere_of_not hb hblank)
  have htext : Text.ofOctets? bs = some (String.ofList (bs.map Char.ofUInt8)) := by
    have hoctets := Text.ofOctets?_octets (String.ofList (bs.map Char.ofUInt8))
    rwa [Text.octets_ofList (fun b hb => (hsilent b hb).1)] at hoctets
  have hidle : parseOnly? (· == recordsKey) (String.ofList (bs.map Char.ofUInt8)) = none := by
    unfold parseOnly?
    rw [String.toList_ofList]
    refine run_idle (fun c hc => ?_)
    obtain ⟨b, hb, rfl⟩ := List.mem_map.1 hc
    exact (hsilent b hb).2
  unfold ofOctets? ofOctetsOnly?
  rw [htext]
  simp only [hidle, Option.bind_none]

theorem trim_octets_ne_noSuchName (a : Answer) :
    Text.trimWhere Text.isAsciiBlank a.octets ≠ Builtin.noSuchName := by
  intro h
  have hnone := ofOctets?_noSuchName h
  rw [ofOctets?_octets] at hnone
  cases hnone

end Answer

/-! ## Lines -/

/-- A name that may begin a line: it has no blanks, begins no comment and does not end in a dot. -/
structure IsName (name : String) : Prop where
  plain : ∀ c ∈ name.toList, Text.isBlank c = false
  comment : name.toList.head? ≠ some ';'
  dot : name.toList.getLast? ≠ some '.'

section Names

variable {name : String} (h : IsName name)

include h

theorem IsName.stops : Text.Stops (· == '.') name.toList.reverse := by
  intro c hc
  rw [List.head?_reverse] at hc
  refine beq_eq_false_iff_ne.2 (fun hdot => h.dot ?_)
  rw [← hdot]
  exact hc

theorem IsName.trimEnd : Text.trimEnd '.' name = name := by
  unfold Text.trimEnd
  rw [Text.trimEndWhere_of_stops h.stops, String.ofList_toList]

theorem IsName.trimEnd_dot : Text.trimEnd '.' (name ++ ".") = name := by
  have hreverse : (name ++ ".").toList.reverse = '.' :: name.toList.reverse := by simp
  unfold Text.trimEnd Text.trimEndWhere
  rw [hreverse, List.dropWhile_cons_of_pos (by decide), Text.dropWhile_of_stops h.stops,
    List.reverse_reverse, String.ofList_toList]

end Names

section Addresses

theorem isWord_text (x : Address) : Text.IsWord x.text.toList := by
  have hblank {c : Char} (hc : Text.isBlank c = true) (d : Char) (hd : Text.isBlank d = false) :
      c ≠ d := by
    rintro rfl
    exact absurd (hc.symm.trans hd) (by decide)
  cases x with
  | v4 x =>
    have htext : (Address.v4 x).text.toList = x.chars := String.toList_ofList
    rw [htext]
    refine ⟨by simp [Address.V4.chars], fun c hc => Bool.eq_false_iff.2 (fun h => ?_)⟩
    exact Address.V4.not_mem_chars (Text.isDigit_of_isBlank h) (hblank h '.' (by decide)) x hc
  | v6 x =>
    have htext : (Address.v6 x).text.toList = x.chars := String.toList_ofList
    rw [htext]
    refine ⟨List.ne_nil_of_mem x.colon_mem_chars, fun c hc => Bool.eq_false_iff.2 (fun h => ?_)⟩
    have hhex : Address.V6.isHex c = false := by
      unfold Address.V6.isHex
      rw [Text.hexValue?_of_isBlank h]
      rfl
    exact Address.V6.not_mem_chars hhex (Text.isDigit_of_isBlank h) (hblank h ':' (by decide))
      (hblank h '.' (by decide)) x hc

end Addresses

/-- What a record of an address says. -/
def addressData : Address → RecordData
  | .v4 x => .a x
  | .v6 x => .aaaa x

def addressRecord (name : String) (x : Address) : ResourceRecord :=
  ⟨name ++ ".", some 0, x.text, addressData x⟩

section Lines

variable {name : String}

theorem data?_text (x : Address) (words : List (List Char)) :
    data? (Text.upperAscii (Answer.recordType x)) x.text words = .ok (some (addressData x)) := by
  cases x with
  | v4 x =>
    have htype : Text.upperAscii (Answer.recordType (.v4 x)) = "A" := by cbv
    have hparse : Address.V4.parse? (Address.v4 x).text = some x := Address.V4.parse?_text x
    unfold data?
    rw [htype, hparse]
    rfl
  | v6 x =>
    have htype : Text.upperAscii (Answer.recordType (.v6 x)) = "AAAA" := by cbv
    have hparse : Address.V6.parse? (Address.v6 x).text = some x := Address.V6.parse?_text x
    unfold data?
    rw [htype, if_neg (by decide), if_pos rfl, hparse]
    rfl

def addressWords (name : String) (x : Address) : List (List Char) :=
  [name.toList ++ ['.'], ['0'], ['I', 'N'], (Answer.recordType x).toList, x.text.toList]

theorem toList_addressLine (name : String) (x : Address) :
    (Answer.addressLine name x).toList
      = (name.toList ++ ['.']) ++ ' ' :: (['0'] ++ ' ' :: (['I', 'N'] ++ ' ' ::
          ((Answer.recordType x).toList ++ ' ' :: x.text.toList))) := by
  simp [Answer.addressLine]

theorem isWord_recordType (x : Address) : Text.IsWord (Answer.recordType x).toList := by
  cases x with
  | v4 x =>
    exact Text.isWord_of_any (w := "A".toList) (by decide) rfl
  | v6 x =>
    exact Text.isWord_of_any (w := "AAAA".toList) (by decide) rfl

theorem IsName.isWord (h : IsName name) : Text.IsWord (name.toList ++ ['.']) := by
  refine ⟨by simp, fun c hc => ?_⟩
  rcases List.mem_append.1 hc with hc | hc
  · exact h.plain c hc
  · rw [List.mem_singleton.1 hc]
    decide

theorem words_addressLine (h : IsName name) (x : Address) :
    Text.words (Answer.addressLine name x).toList = addressWords name x := by
  rw [toList_addressLine, Text.words_append h.isWord (by decide),
    Text.words_append (Text.isWord_of_any (by decide) rfl) (by decide),
    Text.words_append (Text.isWord_of_any (by decide) rfl) (by decide),
    Text.words_append (isWord_recordType x) (by decide), Text.words_of_isWord (isWord_text x)]
  rfl

theorem ofWords_addressWords (name : String) (x : Address) :
    ofWords (addressWords name x) = .ok (some (addressRecord name x)) := by
  have hvalue : Text.join " " ([x.text.toList].map String.ofList) = x.text := by
    simp [Text.join]
  have htype : String.ofList (Answer.recordType x).toList = Answer.recordType x :=
    String.ofList_toList
  have hname : String.ofList (name.toList ++ ['.']) = name ++ "." := by
    rw [← String.toList_inj]
    simp
  have httl : ttl? ['0'] = some 0 := by decide
  unfold ofWords addressWords
  simp only [hvalue, htype, data?_text, hname, httl, List.isEmpty_cons, Bool.false_eq_true,
    if_false]
  rfl

theorem IsName.head?_addressLine (h : IsName name) (x : Address) :
    ∃ c, (Answer.addressLine name x).toList.head? = some c ∧ Text.isBlank c = false ∧ c ≠ ';' := by
  rw [toList_addressLine, List.head?_append_of_ne_nil _ h.isWord.1]
  cases hname : name.toList with
  | nil => exact ⟨'.', rfl, by decide, by decide⟩
  | cons c cs =>
    have hhead : name.toList.head? = some c := by rw [hname]; rfl
    refine ⟨c, rfl, h.plain c (List.mem_of_mem_head? hhead), ?_⟩
    rintro rfl
    exact h.comment hhead

theorem IsName.trim_addressLine (h : IsName name) (x : Address) :
    Text.trimWhere Text.isBlank (Answer.addressLine name x).toList
      = (Answer.addressLine name x).toList := by
  refine Text.trimWhere_of_stops (fun c hc => ?_) (fun c hc => ?_)
  · obtain ⟨d, hhead, hblank, -⟩ := h.head?_addressLine x
    obtain rfl : d = c := Option.some.inj (hhead.symm.trans hc)
    exact hblank
  · obtain ⟨front, hfront⟩ : ∃ front, (Answer.addressLine name x).toList
        = front ++ x.text.toList :=
      ⟨(name ++ ". 0 IN " ++ Answer.recordType x ++ " ").toList, by simp [Answer.addressLine]⟩
    rw [List.head?_reverse, hfront, List.getLast?_append_of_ne_nil _ (isWord_text x).1] at hc
    exact (isWord_text x).2 c (List.mem_of_getLast? hc)

theorem IsName.ofLine_addressLine (h : IsName name) (x : Address) :
    ofLine (Answer.addressLine name x).toList = .ok (some (addressRecord name x)) := by
  have hwords : ofWords (Text.words (Answer.addressLine name x).toList)
      = .ok (some (addressRecord name x)) := by
    rw [words_addressLine h, ofWords_addressWords]
  obtain ⟨c, hhead, -, hcomment⟩ := h.head?_addressLine x
  unfold ofLine
  split
  · rename_i hnil
    rw [hnil] at hhead
    cases hhead
  · rename_i rest hline
    rw [hline] at hhead
    exact absurd (Option.some.inj hhead).symm hcomment
  · exact hwords

theorem IsName.ofLines_map (h : IsName name) (xs : List Address) :
    ofLines (xs.map (fun x => (Answer.addressLine name x).toList))
      = .ok (xs.map (addressRecord name)) := by
  induction xs with
  | nil => rfl
  | cons x xs ih =>
    rw [List.map_cons, ofLines]
    simp only [h.trim_addressLine, h.ofLine_addressLine, ih]
    rfl

theorem IsName.newline_not_mem (h : IsName name) (x : Address) :
    '\n' ∉ (Answer.addressLine name x).toList := by
  have hword {w : List Char} (hw : Text.IsWord w) : '\n' ∉ w := fun hmem =>
    absurd (hw.2 _ hmem) (by decide)
  have hname := hword h.isWord
  have htype := hword (isWord_recordType x)
  have htext := hword (isWord_text x)
  rw [toList_addressLine]
  simp only [List.mem_append, List.mem_cons, List.not_mem_nil, not_or, or_false] at hname ⊢
  exact ⟨hname, by decide, by decide, by decide, ⟨by decide, by decide⟩, by decide, htype,
    by decide, htext⟩

theorem IsName.ofText_join (h : IsName name) (xs : List Address) :
    ofText (Text.join "\n" (xs.map (Answer.addressLine name)))
      = .ok (xs.map (addressRecord name)) := by
  cases xs with
  | nil => rfl
  | cons x xs =>
    have hlines : (Text.join "\n" ((x :: xs).map (Answer.addressLine name))).toList.splitOn '\n'
        = (x :: xs).map (fun x => (Answer.addressLine name x).toList) := by
      rw [Text.splitOn_join rfl (by simp) (fun line hline => ?_), List.map_map]
      · rfl
      · obtain ⟨y, -, rfl⟩ := List.mem_map.1 hline
        exact h.newline_not_mem y
    unfold ofText
    rw [hlines, h.ofLines_map]

end Lines

/-! ## Objects -/

/-- The object of an address on a network. -/
def addressEntity (network : Reference) : Address → Entity
  | .v4 x => .ipv4 network x
  | .v6 x => .ipv6 network x

/-- The record that gives a host an address. -/
def recordEntity (network : Reference) (name : String) (x : Address) : Entity :=
  match x with
  | .v4 _ => .dnsA (Entity.hostname network name).reference x.text
      (addressEntity network x).reference (some 0)
  | .v6 _ => .dnsAAAA (Entity.hostname network name).reference x.text
      (addressEntity network x).reference (some 0)

/-- The link from a host to an address. -/
def linkEntity (network : Reference) (name : String) (x : Address) : Entity :=
  .resolvedHostname (Entity.hostname network name).reference (addressEntity network x).reference

theorem dnsObjects_octets (network : Reference) (name : String) (a : Answer) :
    Builtin.dnsObjects network name a.octets
      = match ofText a.records with
        | .error (fault, line) =>
            .error (.malformedInput (fault.message ++ ": " ++ Text.quoted line))
        | .ok records => .ok (.hostname network name :: records.flatMap (·.entities network)) := by
  unfold Builtin.dnsObjects
  cases hread : ofText a.records with
  | error e =>
    simp only [if_neg (Answer.trim_octets_ne_noSuchName a), Answer.ofOctets?_octets, hread]
  | ok records =>
    simp only [if_neg (Answer.trim_octets_ne_noSuchName a), Answer.ofOctets?_octets, hread]

section Objects

variable {name : String} (h : IsName name) (network : Reference)

include h

theorem IsName.entities_addressRecord (x : Address) :
    (addressRecord name x).entities network
      = [.hostname network name, addressEntity network x, recordEntity network name x] := by
  have howner : host network (name ++ ".") = .hostname network name := by
    unfold host
    rw [h.trimEnd_dot]
  unfold ResourceRecord.entities addressRecord
  simp only [howner]
  cases x <;> rfl

/-- What a normalizer finds in the answer that lists the addresses of a host. -/
theorem IsName.dnsObjects_octets (addresses : List Address) :
    Builtin.dnsObjects network name (Answer.ofAddresses name addresses).octets
      = .ok (.hostname network name :: (SortedSet.ofList addresses).toList.flatMap (fun x =>
          [.hostname network name, addressEntity network x, recordEntity network name x])) := by
  have hrecords : ofText (Answer.ofAddresses name addresses).records
      = .ok ((SortedSet.ofList addresses).toList.map (addressRecord name)) := by
    unfold Answer.ofAddresses
    rw [h.trimEnd]
    exact h.ofText_join _
  have hentities : ((SortedSet.ofList addresses).toList.map (addressRecord name)).flatMap
        (ResourceRecord.entities network)
      = (SortedSet.ofList addresses).toList.flatMap (fun x =>
          [.hostname network name, addressEntity network x, recordEntity network name x]) := by
    rw [List.flatMap_map]
    exact List.flatMap_congr (fun x _ => h.entities_addressRecord network x)
  rw [Dns.dnsObjects_octets]
  simp only [hrecords, hentities]

end Objects

end Dns

end ScanGraph
