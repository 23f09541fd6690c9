/-
Written JSON, read back.

The reader takes the characters of a value as one value, whatever is open
around it and whatever follows: `read_chars`, by recursion over the value.  So
the text of a value denotes that value, and values with one text are one value,
if only their whole numbers are of 64 bits, their other numbers are those that
their texts are read as, and not too many brackets are open at once:
`parse?_render`, `render_injective`.

## What is proved, and how

The reader is a machine that takes one character at a time and remembers which brackets
are open.  `read_chars` is an equation for it, by recursion over the value, with the
characters that follow left open; the lemmas before it say the same of texts, numerals,
items and members.  What follows a number must not go on with it (`Follows`), which
holds of a comma, a bracket and the end.

## What is asked, and what is not

`fits` is what a text can carry: whole numbers of 64 bits, other numbers that are those
which their texts are read as, and at most as many brackets open at once as are left.
For a number that is not whole this is not void, as its text is kept and two texts may
be read as one number.  Nothing is said about texts with blanks between values, or about
which message a text is refused with.
-/
import ScanGraph.Json.Printer
import ScanGraph.Json.Reader
import ScanGraph.Proofs.Text.Reading

namespace ScanGraph.Json

open Text

/-! ## Values that can be read back -/

/-- A text is read as the number that is not whole and has this text. -/
def rereads (text : String) : Bool :=
  match number? text.toList with
  | some (.real read) => read == text
  | _ => false

theorem number?_of_rereads {text : String} (h : rereads text = true) :
    number? text.toList = some (.real text) := by
  unfold rereads at h
  split at h
  · rename_i hread
    rw [hread, beq_iff_eq.1 h]
  · cases h

mutual

/-- The whole numbers of a value are of 64 bits, the others are those that their texts are read
as, and it opens at most `room` brackets at once. -/
def fits (room : Nat) : Json → Bool
  | .int n => isWord n
  | .real text => rereads text
  | .arr items => decide (0 < room) && itemsFit (room - 1) items
  | .obj members => decide (0 < room) && membersFit (room - 1) members
  | _ => true

def itemsFit (room : Nat) : List Json → Bool
  | [] => true
  | v :: rest => fits room v && itemsFit room rest

def membersFit (room : Nat) : List (String × Json) → Bool
  | [] => true
  | (_, v) :: rest => fits room v && membersFit room rest

end

theorem itemsFit_iff {room : Nat} {items : List Json} :
    itemsFit room items = true ↔ ∀ v ∈ items, fits room v = true := by
  induction items with
  | nil => simp [itemsFit]
  | cons v rest ih => simp [itemsFit, ih]

theorem membersFit_iff {room : Nat} {members : List (String × Json)} :
    membersFit room members = true ↔ ∀ m ∈ members, fits room m.2 = true := by
  induction members with
  | nil => simp [membersFit]
  | cons m rest ih => simp [membersFit, ih]

def isNumber : Json → Bool
  | .int _ | .real _ => true
  | _ => false

/-! ## The state of the reader -/

/-- The reader of whole values, to which every member is wanted. -/
abbrev read (s : Reading) (cs : List Char) : Option Reading :=
  run (fun _ => true) s cs

section States

variable {stack : List Frame} {c : Char} {cs rest : List Char}

theorem run_of_step {wanted : String → Bool} {s s' : Reading} (h : step wanted s c = some s') :
    run wanted s (c :: cs) = run wanted s' cs := by
  rw [run, h, Option.bind_some]

theorem read_cons (s : Reading) (c : Char) (cs : List Char) :
    read s (c :: cs) = (step (fun _ => true) s c).bind (fun s' => read s' cs) :=
  rfl

theorem read_of_step {s s' : Reading} (h : step (fun _ => true) s c = some s') :
    read s (c :: cs) = read s' cs :=
  run_of_step h

theorem enter_all (stack : List Frame) : enter (fun _ => true) stack = stack := by
  unfold enter
  split <;> rfl

theorem step_value (hc : isSpace c = false) :
    step (fun _ => true) ⟨stack, .value⟩ c = startValue stack c := by
  simp [step, hc]

/-- After a whole value the next character is taken as after any value. -/
theorem step_complete (v : Json) (hstack : isPassed stack = false) (c : Char) :
    step (fun _ => true) (complete v stack) c = stepIdle (complete v stack) c := by
  cases stack with
  | nil => rfl
  | cons frame rest =>
    cases frame with
    | items done => rfl
    | members done key => rfl
    | passed => cases hstack
    | passedItems => cases hstack
    | passedMembers => cases hstack

end States

/-! ## Texts -/

section Texts

variable {wanted : String → Bool} {stack : List Frame} {isKey : Bool} {rest : List Char}

theorem run_escapeChar (hstack : isPassed stack = false) (c : Char) (before : List Char) :
    run wanted ⟨stack, .text isKey .plain before⟩ (escapeChar c ++ rest)
      = run wanted ⟨stack, .text isKey .plain (c :: before)⟩ rest := by
  unfold escapeChar
  split_ifs with h₁ h₂ h₃ h₄ h₅ h₆ h₇ h₈
  case pos | pos | pos | pos | pos | pos | pos => subst c; rfl
  case pos =>
    have hhigh : hexValue? (Nat.digitChar (c.toNat / 16)) = some (c.toNat / 16) :=
      hexValue?_digitChar (by omega)
    have hlow : hexValue? (Nat.digitChar (c.toNat % 16)) = some (c.toNat % 16) :=
      hexValue?_digitChar (by omega)
    have hvalue : 16 * (c.toNat / 16) + c.toNat % 16 = c.toNat := by omega
    have hzero : hexValue? '0' = some 0 := by decide
    have hend : endHex false c.toNat before = some (.plain, c :: before) := by
      unfold endHex
      rw [if_neg (by decide), if_neg (by omega), if_neg (by omega), Char.ofNat_toNat]
    simp [run, step, closesText, stepText, hstack, hhigh, hlow, hvalue, hzero, hend]
  case neg =>
    simp [run, step, closesText, stepText, h₁, h₂, h₈]

theorem run_escaped (hstack : isPassed stack = false) (cs before : List Char) :
    run wanted ⟨stack, .text isKey .plain before⟩ (cs.flatMap escapeChar ++ rest)
      = run wanted ⟨stack, .text isKey .plain (cs.reverse ++ before)⟩ rest := by
  induction cs generalizing before with
  | nil => rfl
  | cons c cs ih =>
    rw [List.flatMap_cons, List.append_assoc, run_escapeChar hstack, ih, List.reverse_cons,
      List.append_assoc, List.singleton_append]

/-- A text between quotes is read as that text, whatever members are wanted. -/
theorem run_textChars {s' : Reading} {s : String} (hstack : isPassed stack = false)
    (hend : endText stack isKey s.toList.reverse = some s') :
    run wanted ⟨stack, .text isKey .plain []⟩ (s.toList.flatMap escapeChar ++ ['"'] ++ rest)
      = run wanted s' rest := by
  have hstep : step wanted ⟨stack, .text isKey .plain s.toList.reverse⟩ '"' = some s' := hend
  rw [List.append_assoc, run_escaped hstack, List.append_nil, List.singleton_append,
    run_of_step hstep]

theorem read_textChars {s' : Reading} {s : String} (hstack : isPassed stack = false)
    (hend : endText stack isKey s.toList.reverse = some s') :
    read ⟨stack, .text isKey .plain []⟩ (s.toList.flatMap escapeChar ++ ['"'] ++ rest)
      = read s' rest :=
  run_textChars hstack hend

end Texts

/-! ## Numbers -/

section Numbers

theorem isDigit_head_decimal {n : Nat} {c : Char} {cs : List Char} (h : decimal n = c :: cs) :
    c.isDigit = true :=
  isDigit_of_mem_decimal (h ▸ List.mem_cons_self)

theorem isWhole_decimal (n : Nat) : isWhole (decimal n) = true := by
  have hall : (decimal n).all Char.isDigit = true :=
    List.all_eq_true.2 (fun c hc => isDigit_of_mem_decimal hc)
  unfold isWhole
  split
  · rename_i hnil
    exact absurd hnil (decimal_ne_nil n)
  · rfl
  · rename_i ds hne heq
    have hzero : n = 0 := head?_decimal (by rw [heq]; rfl)
    subst hzero
    exact absurd (List.cons.inj heq).2.symm hne
  · exact hall

theorem unsignedNumeral?_decimal (n : Nat) :
    unsignedNumeral? (decimal n) = some ⟨decimal n, none⟩ := by
  have hdigits : ∀ c ∈ decimal n, c.isDigit = true := fun c hc => isDigit_of_mem_decimal hc
  have hrun := takeWhile_append_of_stops hdigits stops_nil
  have hrest := dropWhile_append_of_stops hdigits stops_nil
  rw [List.append_nil] at hrun hrest
  unfold unsignedNumeral?
  simp [hrun, hrest, isWhole_decimal]

theorem ne_of_isDigit {c d : Char} (h : c.isDigit = true) (hd : d.isDigit = false) : c ≠ d := by
  rintro rfl
  exact absurd (h.symm.trans hd) (by decide)

theorem number?_intChars {n : Int} (h : isWord n = true) :
    number? (intChars n) = some (.int n) := by
  cases n with
  | ofNat n =>
    obtain ⟨c, cs, hcs⟩ := List.exists_cons_of_ne_nil (decimal_ne_nil n)
    have hc : c ≠ '-' := ne_of_isDigit (isDigit_head_decimal hcs) (by decide)
    have hunsigned : unsigned (decimal n) = decimal n := by
      rw [hcs]
      unfold unsigned
      split
      · rename_i heq
        exact absurd (List.cons.inj heq).1 hc
      · rfl
    have hpositive : ((decimal n).head? == some '-') = false := by
      rw [hcs]
      simpa using hc
    have hword : isWord (n : Int) = true := h
    unfold number? intChars
    simp only [hunsigned, unsignedNumeral?_decimal, hpositive, valueOf_decimal]
    simp [hword]
  | negSucc n =>
    have hvalue : -((n + 1 : Nat) : Int) = Int.negSucc n := rfl
    unfold number? intChars
    simp only [unsigned, unsignedNumeral?_decimal, valueOf_decimal, List.head?_cons,
      beq_self_eq_true, if_true, hvalue]
    simp [h]

theorem inNumeral_of_isDigit {c : Char} (h : c.isDigit = true) : inNumeral c = true := by
  simp [inNumeral, h]

theorem inNumeral_of_natural? {cs : List Char} {n : Nat} (h : natural? cs = some n) :
    ∀ c ∈ cs, inNumeral c = true := by
  unfold natural? at h
  obtain ⟨hdigits, -⟩ := Option.ite_none_right_eq_some.1 h
  rw [Bool.and_eq_true, List.all_eq_true] at hdigits
  exact fun c hc => inNumeral_of_isDigit (hdigits.2 c hc)

theorem inNumeral_of_exponent? {cs : List Char} {x : Int} (h : exponent? cs = some x) :
    ∀ c ∈ cs, inNumeral c = true := by
  have hsign {c : Char} {ds : List Char} (hc : inNumeral c = true)
      (hds : ∀ d ∈ ds, inNumeral d = true) : ∀ d ∈ c :: ds, inNumeral d = true :=
    List.forall_mem_cons.2 ⟨hc, hds⟩
  unfold exponent? at h
  split at h <;> obtain ⟨n, hn, -⟩ := Option.map_eq_some_iff.1 h
  · exact hsign (by decide) (inNumeral_of_natural? hn)
  · obtain ⟨m, hm, -⟩ := Option.bind_eq_some_iff.1 hn
    exact hsign (by decide) (inNumeral_of_natural? hm)
  · exact inNumeral_of_natural? hn

theorem inNumeral_of_mark {c : Char} {ex ds : List Char} {t : List Char × Int}
    (h : (if c = 'e' ∨ c = 'E' then (exponent? ex).map (fun x => (ds, x)) else none) = some t) :
    ∀ d ∈ c :: ex, inNumeral d = true := by
  obtain ⟨hmark, hex⟩ := Option.ite_none_right_eq_some.1 h
  obtain ⟨x, hx, -⟩ := Option.map_eq_some_iff.1 hex
  refine List.forall_mem_cons.2 ⟨?_, inNumeral_of_exponent? hx⟩
  rcases hmark with rfl | rfl <;> decide

theorem isDigit_of_mem_takeWhile {cs : List Char} :
    ∀ c ∈ cs.takeWhile Char.isDigit, c.isDigit = true :=
  List.all_eq_true.1 List.all_takeWhile

theorem inNumeral_of_mem_takeWhile {cs : List Char} :
    ∀ c ∈ cs.takeWhile Char.isDigit, inNumeral c = true :=
  fun c hc => inNumeral_of_isDigit (isDigit_of_mem_takeWhile c hc)

theorem inNumeral_of_tail? {cs : List Char} {t : List Char × Int} (h : tail? cs = some t) :
    ∀ c ∈ cs, inNumeral c = true := by
  unfold tail? at h
  split at h
  · exact fun c hc => absurd hc List.not_mem_nil
  · rename_i rest
    refine List.forall_mem_cons.2 ⟨by decide, ?_⟩
    rw [← List.takeWhile_append_dropWhile (p := Char.isDigit) (l := rest)]
    refine List.forall_mem_append.2 ⟨inNumeral_of_mem_takeWhile, ?_⟩
    obtain ⟨-, h⟩ := Option.ite_none_left_eq_some.1 h
    split at h
    · rename_i hnil
      rw [hnil]
      exact fun c hc => absurd hc List.not_mem_nil
    · rename_i hcons
      rw [hcons]
      exact inNumeral_of_mark h
  · exact inNumeral_of_mark h

theorem inNumeral_of_unsignedNumeral? {cs : List Char} {n : Numeral}
    (h : unsignedNumeral? cs = some n) :
    (∃ c more, cs = c :: more ∧ c.isDigit = true) ∧ ∀ c ∈ cs, inNumeral c = true := by
  have hsplit := List.takeWhile_append_dropWhile (p := Char.isDigit) (l := cs)
  unfold unsignedNumeral? at h
  obtain ⟨hwhole, h⟩ := Option.ite_none_left_eq_some.1 h
  constructor
  · cases hrun : cs.takeWhile Char.isDigit with
    | nil =>
      rw [hrun] at hwhole
      exact absurd rfl hwhole
    | cons c more =>
      have hc : c ∈ cs.takeWhile Char.isDigit := hrun ▸ List.mem_cons_self
      rw [hrun, List.cons_append] at hsplit
      exact ⟨c, _, hsplit.symm, isDigit_of_mem_takeWhile c hc⟩
  · rw [← hsplit]
    refine List.forall_mem_append.2 ⟨inNumeral_of_mem_takeWhile, ?_⟩
    split at h
    · rename_i hnil
      rw [List.isEmpty_iff.1 hnil]
      exact fun c hc => absurd hc List.not_mem_nil
    · obtain ⟨t, ht, -⟩ := Option.map_eq_some_iff.1 h
      exact inNumeral_of_tail? ht

/-- What denotes a number begins with a digit or a sign, and no other character ends it. -/
theorem inNumeral_of_number? {cs : List Char} {v : Json} (h : number? cs = some v) :
    (∃ c more, cs = c :: more ∧ (c = '-' ∨ c.isDigit = true)) ∧
      ∀ c ∈ cs, inNumeral c = true := by
  unfold number? at h
  split at h
  · cases h
  · rename_i n hn
    unfold unsigned at hn
    split at hn
    · exact ⟨⟨'-', _, rfl, .inl rfl⟩,
        List.forall_mem_cons.2 ⟨by decide, (inNumeral_of_unsignedNumeral? hn).2⟩⟩
    · obtain ⟨⟨c, more, hcons, hc⟩, hall⟩ := inNumeral_of_unsignedNumeral? hn
      exact ⟨⟨c, more, hcons, .inr hc⟩, hall⟩

theorem read_numeral {stack : List Frame} {cs rest : List Char} (before : List Char)
    (h : ∀ c ∈ cs, inNumeral c = true) :
    read ⟨stack, .number before⟩ (cs ++ rest)
      = read ⟨stack, .number (cs.reverse ++ before)⟩ rest := by
  induction cs generalizing before with
  | nil => rfl
  | cons c cs ih =>
    have hstep : step (fun _ => true) ⟨stack, .number before⟩ c
        = some ⟨stack, .number (c :: before)⟩ := by
      simp [step, h c List.mem_cons_self]
    rw [List.cons_append, read_of_step hstep, ih _ (fun d hd => h d (List.mem_cons_of_mem _ hd)),
      List.reverse_cons, List.append_assoc, List.singleton_append]

theorem isSpace_of_isDigit {c : Char} (h : c.isDigit = true) : isSpace c = false := by
  have hne {d : Char} (hd : d.isDigit = false) : c ≠ d := ne_of_isDigit h hd
  simp [isSpace, hne (d := ' ') (by decide), hne (d := '\n') (by decide),
    hne (d := '\t') (by decide), hne (d := '\r') (by decide)]

theorem startValue_of_isDigit {c : Char} (h : c.isDigit = true) (stack : List Frame) :
    startValue stack c = some ⟨stack, .number [c]⟩ := by
  unfold startValue
  rw [if_neg (ne_of_isDigit h (by decide)), if_neg (ne_of_isDigit h (by decide)),
    if_neg (ne_of_isDigit h (by decide)), if_pos (.inr h)]

/-- The characters of a number are read as a numeral that is still open. -/
theorem read_number {cs : List Char} {v : Json} (h : number? cs = some v) (stack : List Frame)
    (rest : List Char) :
    read ⟨stack, .value⟩ (cs ++ rest) = read ⟨stack, .number cs.reverse⟩ rest := by
  obtain ⟨⟨c, more, rfl, hc⟩, hall⟩ := inNumeral_of_number? h
  have hstep : step (fun _ => true) ⟨stack, .value⟩ c = some ⟨stack, .number [c]⟩ := by
    rcases hc with rfl | hc
    · rfl
    · rw [step_value (isSpace_of_isDigit hc), startValue_of_isDigit hc]
  have hmore : ∀ d ∈ more, inNumeral d = true := fun d hd => hall d (List.mem_cons_of_mem c hd)
  rw [List.cons_append, read_of_step hstep, read_numeral [c] hmore, List.reverse_cons]

theorem number?_chars {room : Nat} {v : Json} (hnumber : isNumber v = true)
    (hfits : fits room v = true) : number? (chars v) = some v := by
  cases v with
  | int n => exact number?_intChars hfits
  | real text => exact number?_of_rereads hfits
  | _ => cases hnumber

end Numbers

/-! ## Values -/

/-- What stands after a value: after a number it must be something that is no part of it. -/
def Follows (v : Json) (rest : List Char) : Prop :=
  isNumber v = true → ∃ c more, rest = c :: more ∧ inNumeral c = false

section Values

variable {room : Nat} {stack : List Frame} {rest : List Char}

theorem follows_cons {v : Json} {c : Char} {more : List Char} (h : inNumeral c = false) :
    Follows v (c :: more) :=
  fun _ => ⟨c, more, rfl, h⟩

theorem follows_itemChars (v : Json) (items : List Json) (rest : List Char) :
    Follows v (itemChars items ++ rest) := by
  cases items with
  | nil => exact follows_cons (by decide)
  | cons w items => exact follows_cons (by decide)

theorem follows_memberChars (v : Json) (members : List (String × Json)) (rest : List Char) :
    Follows v (memberChars members ++ rest) := by
  cases members with
  | nil => exact follows_cons (by decide)
  | cons m members => exact follows_cons (by decide)

theorem exists_head_chars {v : Json} (hfits : fits room v = true) :
    ∃ c cs, chars v = c :: cs ∧ isSpace c = false ∧ c ≠ ']' := by
  have hnumber (h : isNumber v = true) :
      ∃ c cs, chars v = c :: cs ∧ isSpace c = false ∧ c ≠ ']' := by
    obtain ⟨c, cs, hcs, hc⟩ := (inNumeral_of_number? (number?_chars h hfits)).1
    refine ⟨c, cs, hcs, ?_⟩
    rcases hc with rfl | hc
    · decide
    · exact ⟨isSpace_of_isDigit hc, ne_of_isDigit hc (by decide)⟩
  cases v with
  | null => exact ⟨'n', ['u', 'l', 'l'], rfl, by decide, by decide⟩
  | bool b => cases b <;> exact ⟨_, _, rfl, by decide, by decide⟩
  | int n => exact hnumber rfl
  | real text => exact hnumber rfl
  | str s => exact ⟨'"', _, rfl, by decide, by decide⟩
  | arr items => cases items <;> exact ⟨'[', _, rfl, by decide, by decide⟩
  | obj members => cases members <;> exact ⟨'\x7b', _, rfl, by decide, by decide⟩

theorem read_firstItem {v : Json} (hfits : fits room v = true) (stack : List Frame)
    (rest : List Char) :
    read ⟨stack, .firstItem⟩ (chars v ++ rest) = read ⟨stack, .value⟩ (chars v ++ rest) := by
  obtain ⟨c, cs, hcs, hspace, hend⟩ := exists_head_chars hfits
  have hstep : step (fun _ => true) ⟨stack, .firstItem⟩ c
      = step (fun _ => true) ⟨stack, .value⟩ c := by
    simp [step, hspace, hend]
  rw [hcs, List.cons_append, read_cons, hstep, ← read_cons]

theorem read_number_followed {v : Json} (hnumber : isNumber v = true) (hfits : fits room v = true)
    (hstack : isPassed stack = false) (hrest : Follows v rest) :
    read ⟨stack, .value⟩ (chars v ++ rest) = read (complete v stack) rest := by
  obtain ⟨c, more, rfl, hc⟩ := hrest hnumber
  have hvalue : number? (chars v) = some v := number?_chars hnumber hfits
  have hend : endNumber stack (chars v).reverse = some (complete v stack) := by
    unfold endNumber
    rw [hstack, List.reverse_reverse, hvalue]
    rfl
  have hstep : step (fun _ => true) ⟨stack, .number (chars v).reverse⟩ c
      = step (fun _ => true) (complete v stack) c := by
    rw [step_complete _ hstack]
    simp [step, hc, hend]
  rw [read_number hvalue, read_cons, hstep, ← read_cons]

theorem read_str (hstack : isPassed stack = false) (s : String) :
    read ⟨stack, .value⟩ (textChars s ++ rest) = read (complete (.str s) stack) rest := by
  have hstart : step (fun _ => true) ⟨stack, .value⟩ '"' = some ⟨stack, .text false .plain []⟩ :=
    rfl
  have hend : endText stack false s.toList.reverse = some (complete (.str s) stack) := by
    simp [endText]
  rw [textChars, List.cons_append, read_of_step hstart, read_textChars hstack hend]

theorem read_key {done : List (String × Json)} {phase : Phase} (key old : String)
    (hphase : phase = .firstKey ∨ phase = .key) :
    read ⟨.members done old :: stack, phase⟩ (textChars key ++ ':' :: rest)
      = read ⟨.members done key :: stack, .value⟩ rest := by
  have hstart : step (fun _ => true) ⟨.members done old :: stack, phase⟩ '"'
      = some ⟨.members done old :: stack, .text true .plain []⟩ := by
    rcases hphase with rfl | rfl <;> rfl
  have hend : endText (.members done old :: stack) true key.toList.reverse
      = some ⟨.members done key :: stack, .colon⟩ := by
    simp [endText]
  have hcolon : step (fun _ => true) ⟨.members done key :: stack, .colon⟩ ':'
      = some ⟨.members done key :: stack, .value⟩ := by
    simp [step, isSpace, enter_all]
  rw [textChars, List.cons_append, read_of_step hstart, read_textChars rfl hend,
    read_of_step hcolon]

theorem openWith_of_room {f bare : Frame} {phase : Phase} (hstack : isPassed stack = false)
    (hroom : stack.length < maxDepth) : openWith f bare phase stack = some ⟨f :: stack, phase⟩ := by
  unfold openWith
  rw [hstack, if_neg (by decide), if_pos hroom]

end Values

mutual

/-- The characters of a value are read as that value, whatever is open and whatever follows. -/
theorem read_chars : ∀ (v : Json) {room : Nat} {stack : List Frame} {rest : List Char},
    fits room v = true → room + stack.length ≤ maxDepth → isPassed stack = false →
    Follows v rest → read ⟨stack, .value⟩ (chars v ++ rest) = read (complete v stack) rest
  | .null, _, _, _, _, _, _, _ => rfl
  | .bool true, _, _, _, _, _, _, _ => rfl
  | .bool false, _, _, _, _, _, _, _ => rfl
  | .int _, _, _, _, hfits, _, hstack, hrest => read_number_followed rfl hfits hstack hrest
  | .real _, _, _, _, hfits, _, hstack, hrest => read_number_followed rfl hfits hstack hrest
  | .str s, _, _, _, _, _, hstack, _ => by
    rw [chars]
    exact read_str hstack s
  | .arr items, room, stack, rest, hfits, hroom, hstack, _ => by
    obtain ⟨hopen, hitems⟩ : 0 < room ∧ itemsFit (room - 1) items = true := by
      simpa [fits] using hfits
    have hless : stack.length < maxDepth := by omega
    have hstart : step (fun _ => true) ⟨stack, .value⟩ '['
        = some ⟨.items [] :: stack, .firstItem⟩ :=
      openWith_of_room hstack hless
    cases items with
    | nil =>
      rw [chars, List.cons_append, read_of_step hstart]
      rfl
    | cons v items =>
      obtain ⟨hv, hmore⟩ : fits (room - 1) v = true ∧ itemsFit (room - 1) items = true := by
        simpa [itemsFit] using hitems
      have hinside : room - 1 + (Frame.items [] :: stack).length ≤ maxDepth := by
        rw [List.length_cons]
        omega
      rw [chars, List.cons_append, read_of_step hstart, List.append_assoc, read_firstItem hv,
        read_chars v hv hinside rfl (follows_itemChars v items rest)]
      exact read_itemChars items [v] hmore hinside
  | .obj members, room, stack, rest, hfits, hroom, hstack, _ => by
    obtain ⟨hopen, hmembers⟩ : 0 < room ∧ membersFit (room - 1) members = true := by
      simpa [fits] using hfits
    have hless : stack.length < maxDepth := by omega
    have hstart : step (fun _ => true) ⟨stack, .value⟩ '\x7b'
        = some ⟨.members [] "" :: stack, .firstKey⟩ :=
      openWith_of_room hstack hless
    cases members with
    | nil =>
      rw [chars, List.cons_append, read_of_step hstart]
      rfl
    | cons m members =>
      obtain ⟨key, v⟩ := m
      obtain ⟨hv, hmore⟩ : fits (room - 1) v = true ∧ membersFit (room - 1) members = true := by
        simpa [membersFit] using hmembers
      have hinside : room - 1 + (Frame.members [] key :: stack).length ≤ maxDepth := by
        rw [List.length_cons]
        omega
      rw [chars, List.cons_append, read_of_step hstart, List.append_assoc, List.cons_append,
        List.append_assoc, read_key key "" (.inl rfl),
        read_chars v hv hinside rfl (follows_memberChars v members rest)]
      exact read_memberChars members [(key, v)] hmore hinside

theorem read_itemChars : ∀ (items done : List Json) {room : Nat} {stack : List Frame}
    {rest : List Char}, itemsFit room items = true → room + (stack.length + 1) ≤ maxDepth →
    read ⟨.items done :: stack, .next⟩ (itemChars items ++ rest)
      = read (complete (.arr (done.reverse ++ items)) stack) rest
  | [], done, _, _, _, _, _ => by
    rw [List.append_nil]
    rfl
  | v :: items, done, room, stack, rest, hfits, hroom => by
    obtain ⟨hv, hmore⟩ : fits room v = true ∧ itemsFit room items = true := by
      simpa [itemsFit] using hfits
    have hcomma : step (fun _ => true) ⟨.items done :: stack, .next⟩ ','
        = some ⟨.items done :: stack, .value⟩ := rfl
    have hinside : room + (Frame.items done :: stack).length ≤ maxDepth := hroom
    have hitems : read ⟨.items (v :: done) :: stack, .next⟩ (itemChars items ++ rest)
        = read (complete (.arr ((v :: done).reverse ++ items)) stack) rest :=
      read_itemChars items (v :: done) hmore hroom
    rw [List.reverse_cons, List.append_assoc, List.singleton_append] at hitems
    rw [itemChars, List.cons_append, read_of_step hcomma, List.append_assoc,
      read_chars v hv hinside rfl (follows_itemChars v items rest)]
    exact hitems

theorem read_memberChars : ∀ (members done : List (String × Json)) {room : Nat}
    {stack : List Frame} {rest : List Char}, membersFit room members = true →
    room + (stack.length + 1) ≤ maxDepth →
    read ⟨.members done "" :: stack, .next⟩ (memberChars members ++ rest)
      = read (complete (.obj (done.reverse ++ members)) stack) rest
  | [], done, _, _, _, _, _ => by
    rw [List.append_nil]
    rfl
  | (key, v) :: members, done, room, stack, rest, hfits, hroom => by
    obtain ⟨hv, hmore⟩ : fits room v = true ∧ membersFit room members = true := by
      simpa [membersFit] using hfits
    have hcomma : step (fun _ => true) ⟨.members done "" :: stack, .next⟩ ','
        = some ⟨.members done "" :: stack, .key⟩ := rfl
    have hinside : room + (Frame.members done key :: stack).length ≤ maxDepth := hroom
    have hmembers : read ⟨.members ((key, v) :: done) "" :: stack, .next⟩
          (memberChars members ++ rest)
        = read (complete (.obj (((key, v) :: done).reverse ++ members)) stack) rest :=
      read_memberChars members ((key, v) :: done) hmore hroom
    rw [List.reverse_cons, List.append_assoc, List.singleton_append] at hmembers
    rw [memberChars, List.cons_append, read_of_step hcomma, List.append_assoc, List.cons_append,
      List.append_assoc, read_key key "" (.inr rfl),
      read_chars v hv hinside rfl (follows_memberChars v members rest)]
    exact hmembers

end

/-! ## Whole texts -/

theorem result?_read_chars {v : Json} (hfits : fits maxDepth v = true) :
    (read start (chars v)).bind result? = some v := by
  by_cases hnumber : isNumber v = true
  · -- a number ends only with the text
    have hvalue : number? (chars v) = some v := number?_chars hnumber hfits
    have hread := read_number hvalue [] []
    rw [List.append_nil] at hread
    rw [start, hread]
    show number? (chars v).reverse.reverse = some v
    rw [List.reverse_reverse, hvalue]
  · have hread : read ⟨[], .value⟩ (chars v ++ []) = read (complete v []) [] :=
      read_chars v hfits (Nat.le_refl _) rfl (fun h => absurd h hnumber)
    rw [List.append_nil] at hread
    rw [start, hread]
    rfl

theorem parse?_render {v : Json} (hfits : fits maxDepth v = true) : parse? v.render = some v := by
  unfold parse? parseOnly? render
  rw [String.toList_ofList]
  exact result?_read_chars hfits

theorem render_injective {v w : Json} (hv : fits maxDepth v = true) (hw : fits maxDepth w = true)
    (h : v.render = w.render) : v = w := by
  have hread := parse?_render hv
  rw [h, parse?_render hw] at hread
  exact (Option.some.inj hread).symm

end ScanGraph.Json
