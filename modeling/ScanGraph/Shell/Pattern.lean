/-
Text patterns: regular expressions with anchors, groups and references to groups.

What is left of a pattern after a character is a pattern again, so a pattern is
matched by taking the characters of a text one after the other, and a match may
end wherever what is left admits the empty text.  Of the matches that begin at
one place the longest counts.  What the groups of a match hold is found by
cutting the match: of two patterns in a row the first takes as much as it can.

A reference to a group is no regular expression; a pattern that holds one is
matched by trying all ways.
-/

namespace ScanGraph.Shell

structure CharSet where
  ranges : List (Char × Char)
  negated : Bool
  /-- Capital and small letters count as the same. -/
  anyCase : Bool
deriving DecidableEq, Repr

namespace CharSet

/-- A character lies in one of the ranges. -/
def inRanges (s : CharSet) (c : Char) : Bool :=
  s.ranges.any (fun r => decide (r.1 ≤ c) && decide (c ≤ r.2))

def accepts (s : CharSet) (c : Char) : Bool :=
  (s.inRanges c || (s.anyCase && (s.inRanges c.toLower || s.inRanges c.toUpper))) != s.negated

def single (anyCase : Bool) (c : Char) : CharSet :=
  ⟨[(c, c)], false, anyCase⟩

def everything : CharSet :=
  ⟨[], true, false⟩

def isWord (c : Char) : Bool :=
  c.isAlphanum || c == '_'

end CharSet

/-- A place between two characters, of which one or both are missing at the ends of a text. -/
structure Place where
  before : Option Char
  next : Option Char
deriving DecidableEq, Repr

inductive Anchor where
  | start
  | finish
  | wordStart
  | wordEnd
  | wordEdge
  | wordInside
  | noWordBefore
  | noWordAfter
deriving DecidableEq, Repr

def Anchor.admits (a : Anchor) (p : Place) : Bool :=
  let before := p.before.any CharSet.isWord
  let next := p.next.any CharSet.isWord
  match a with
  | start => p.before.isNone
  | finish => p.next.isNone
  | wordStart => !before && next
  | wordEnd => before && !next
  | wordEdge => before != next
  | wordInside => before == next
  | noWordBefore => !before
  | noWordAfter => !next

/-- A regular expression; a group has a number, and so has a reference to it. -/
inductive Pattern where
  | never
  | empty
  | anchor (a : Anchor)
  | one (s : CharSet)
  | seq (a b : Pattern)
  | either (a b : Pattern)
  | many (a : Pattern)
  | group (n : Nat) (a : Pattern)
  | same (n : Nat)
deriving DecidableEq, Repr

namespace Pattern

/-! ## Simplifying constructors -/

def seqOf : Pattern → Pattern → Pattern
  | .never, _ => .never
  | _, .never => .never
  | .empty, b => b
  | a, .empty => a
  | a, b => .seq a b

/-- One of the alternatives of a pattern is the given one. -/
def hasAlternative : Pattern → Pattern → Bool
  | .either b c, a => a == b || c.hasAlternative a
  | b, a => a == b

/-- One pattern or the other, each alternative once. -/
def eitherOf : Pattern → Pattern → Pattern
  | .never, b => b
  | .either x y, b => eitherOf x (eitherOf y b)
  | a, b => if b = .never then a else if b.hasAlternative a then b else .either a b

/-- A pattern at least and at most some number of times. -/
def times (least : Nat) (most : Option Nat) (a : Pattern) : Pattern :=
  (List.replicate least a).foldr seqOf
    (match most with
      | none => .many a
      | some n =>
          (List.replicate (n - least) a).foldr (fun a b => eitherOf (seqOf a b) .empty) .empty)

/-- The pattern of a text that stands for itself. -/
def literal (anyCase : Bool) (cs : List Char) : Pattern :=
  (cs.map (fun c => .one (.single anyCase c))).foldr seqOf .empty

def whole (a : Pattern) : Pattern :=
  seqOf (.anchor .start) (seqOf a (.anchor .finish))

/-- The pattern with no character of a word next to it. -/
def wholeWord (a : Pattern) : Pattern :=
  seqOf (.anchor .noWordBefore) (seqOf a (.anchor .noWordAfter))

/-! ## Matching without references -/

/-- A pattern admits the empty text at a place. -/
def admitsEmpty (p : Place) : Pattern → Bool
  | .never => false
  | .empty => true
  | .anchor a => a.admits p
  | .one _ => false
  | .seq a b => a.admitsEmpty p && b.admitsEmpty p
  | .either a b => a.admitsEmpty p || b.admitsEmpty p
  | .many _ => true
  | .group _ a => a.admitsEmpty p
  | .same _ => false

/-- What is left of a pattern after a character. -/
def after (before : Option Char) (c : Char) : Pattern → Pattern
  | .never => .never
  | .empty => .never
  | .anchor _ => .never
  | .one s => if s.accepts c then .empty else .never
  | .seq a b =>
      let first := seqOf (a.after before c) b
      if a.admitsEmpty ⟨before, some c⟩ then eitherOf first (b.after before c) else first
  | .either a b => eitherOf (a.after before c) (b.after before c)
  | .many a => seqOf (a.after before c) (.many a)
  | .group _ a => a.after before c
  | .same _ => .never

/-- The lengths of the matches at the beginning of a text, longest first; `found` are those found
so far, of which the text at hand comes `n` characters after the beginning. -/
def lengthsFrom (following : Option Char) (found : List Nat) (n : Nat) :
    Option Char → Pattern → List Char → List Nat
  | before, p, [] => if p.admitsEmpty ⟨before, following⟩ then n :: found else found
  | before, p, c :: cs =>
      let found := if p.admitsEmpty ⟨before, some c⟩ then n :: found else found
      match p.after before c with
      | .never => found
      | q => lengthsFrom following found (n + 1) (some c) q cs

/-- The lengths of the matches at the beginning of a text between two characters, longest
first. -/
def lengths (p : Pattern) (before : Option Char) (cs : List Char) (following : Option Char) :
    List Nat :=
  lengthsFrom following [] 0 before p cs

/-- A pattern matches the whole of a text between two characters. -/
def fits (following : Option Char) : Option Char → Pattern → List Char → Bool
  | before, p, [] => p.admitsEmpty ⟨before, following⟩
  | before, p, c :: cs =>
      match p.after before c with
      | .never => false
      | q => fits following (some c) q cs

/-- What the groups of a match hold, by their numbers; the last entry of a number counts. -/
abbrev Groups := List (Nat × List Char)

/-- A text cut in two: where, and the characters around the cut. -/
structure Cut where
  front : List Char
  back : List Char
  last : Option Char
  first : Option Char

/-- The cut of a text between two characters after `n` characters. -/
def cutAt (before : Option Char) (cs : List Char) (following : Option Char) (n : Nat) : Cut :=
  let front := cs.take n
  let back := cs.drop n
  ⟨front, back, front.getLast?.or before, back.head?.or following⟩

/-- The groups of a pattern that is repeated over a text, each time as long as can be; at most
`fuel` times. -/
def repeatedGroups (a : Pattern)
    (inside : Option Char → List Char → Option Char → Groups) :
    Nat → Option Char → List Char → Option Char → Groups
  | 0, _, _, _ => []
  | _ + 1, _, [], _ => []
  | fuel + 1, before, c :: cs, following =>
      let cuts := (a.lengths before (c :: cs) following).filter (· != 0)
      match cuts.find? (fun n =>
          let cut := cutAt before (c :: cs) following n
          fits following cut.last (.many a) cut.back) with
      | none => []
      | some n =>
          let cut := cutAt before (c :: cs) following n
          inside before cut.front cut.first
            ++ repeatedGroups a inside fuel cut.last cut.back following

/-- The groups of a pattern that fits a text between two characters. -/
def groupsOf : Pattern → Option Char → List Char → Option Char → Groups
  | .seq a b, before, cs, following =>
      match (a.lengths before cs following).find? (fun n =>
          let cut := cutAt before cs following n
          fits following cut.last b cut.back) with
      | none => []
      | some n =>
          let cut := cutAt before cs following n
          a.groupsOf before cut.front cut.first ++ b.groupsOf cut.last cut.back following
  | .either a b, before, cs, following =>
      if fits following before a cs then a.groupsOf before cs following
      else b.groupsOf before cs following
  | .many a, before, cs, following =>
      repeatedGroups a a.groupsOf cs.length before cs following
  | .group n a, before, cs, following => (n, cs) :: a.groupsOf before cs following
  | _, _, _, _ => []

/-! ## Matching with references -/

def refers : Pattern → Bool
  | .seq a b => a.refers || b.refers
  | .either a b => a.refers || b.refers
  | .many a => a.refers
  | .group _ a => a.refers
  | .same _ => true
  | _ => false

/-- A match on its way: the character before the rest of a text, and the groups so far. -/
structure Track where
  before : Option Char
  rest : List Char
  groups : Groups

def Track.take (t : Track) (n : Nat) : Track :=
  { t with before := (t.rest.take n).getLast?.or t.before, rest := t.rest.drop n }

def Track.taken (t later : Track) : List Char :=
  t.rest.take (t.rest.length - later.rest.length)

/-- The ways of repeating a step that gets on, longest first; at most `fuel` times. -/
def repeatedTracks (step : Track → List Track) : Nat → Track → List Track
  | 0, t => [t]
  | fuel + 1, t =>
      ((step t).filter (fun u => u.rest.length < t.rest.length)).flatMap
        (repeatedTracks step fuel) ++ [t]

/-- The ways of matching a pattern from a place on. -/
def tracks (following : Option Char) : Pattern → Track → List Track
  | .never, _ => []
  | .empty, t => [t]
  | .anchor a, t => if a.admits ⟨t.before, t.rest.head?.or following⟩ then [t] else []
  | .one s, t =>
      match t.rest with
      | c :: _ => if s.accepts c then [t.take 1] else []
      | [] => []
  | .seq a b, t => (tracks following a t).flatMap (tracks following b)
  | .either a b, t => tracks following a t ++ tracks following b t
  | .many a, t => repeatedTracks (tracks following a) t.rest.length t
  | .group n a, t =>
      (tracks following a t).map (fun u => { u with groups := (n, t.taken u) :: u.groups })
  | .same n, t =>
      match t.groups.lookup n with
      | some text => if text.isPrefixOf t.rest then [t.take text.length] else []
      | none => []

def longestTrack : List Track → Option Track
  | [] => none
  | t :: ts =>
      match longestTrack ts with
      | some u => if u.rest.length < t.rest.length then some u else some t
      | none => some t

/-! ## Searching -/

/-- A match: its length, and what its groups hold. -/
structure Hit where
  length : Nat
  groups : Groups

def Hit.group (h : Hit) (n : Nat) : List Char :=
  (h.groups.reverse.lookup n).getD []

/-- The longest match at the beginning of a text. -/
def matchAt (p : Pattern) (before : Option Char) (cs : List Char) : Option Hit :=
  if p.refers then
    (longestTrack (tracks none p ⟨before, cs, []⟩)).map
      (fun t => ⟨cs.length - t.rest.length, t.groups.reverse⟩)
  else
    (p.lengths before cs none).head?.map (fun n =>
      let cut := cutAt before cs none n
      ⟨n, p.groupsOf before cut.front cut.first⟩)

/-- There is a match at the beginning of a text. -/
def matchesAt (p : Pattern) (before : Option Char) (cs : List Char) : Bool :=
  if p.refers then (p.matchAt before cs).isSome else !(p.lengths before cs none).isEmpty

/-- There is a match somewhere from here on. -/
def matchesFrom (p : Pattern) : Option Char → List Char → Bool
  | before, [] => p.matchesAt before []
  | before, c :: cs => p.matchesAt before (c :: cs) || matchesFrom p (some c) cs

/-- The pattern matches a part of a text. -/
def matchesIn (p : Pattern) (cs : List Char) : Bool :=
  matchesFrom p none cs

/-- The pattern matches the whole of a text. -/
def matchesAll (p : Pattern) (cs : List Char) : Bool :=
  fits none none p cs

/-- A part of a text: what stands before a match, the match and what its groups hold. -/
structure Found where
  skipped : List Char
  text : List Char
  hit : Hit

/-- The first match from here on, before which `skipped` was passed, last character first; and
what follows it. -/
def firstFrom (p : Pattern) (skipped : List Char) : Option Char → List Char →
    Option (Found × List Char)
  | before, [] =>
      (p.matchAt before []).map (fun h => (⟨skipped.reverse, [], h⟩, []))
  | before, c :: cs =>
      match p.matchAt before (c :: cs) with
      | some h =>
          some (⟨skipped.reverse, (c :: cs).take h.length, h⟩, (c :: cs).drop h.length)
      | none => firstFrom p (c :: skipped) (some c) cs

/-- The matches of a text from left to right, and what follows the last one.  After an empty match
one character is passed, and no empty match stands directly after another match; at most `fuel`
matches are found. -/
def allFrom (p : Pattern) : Nat → Bool → List Char → Option Char → List Char →
    List Found × List Char
  | 0, _, skipped, _, cs => ([], skipped.reverse ++ cs)
  | fuel + 1, afterMatch, skipped, before, cs =>
      match firstFrom p skipped before cs with
      | none => ([], skipped.reverse ++ cs)
      | some (f, rest) =>
          let blocked := f.text.isEmpty && afterMatch && f.skipped.isEmpty
          let last := (f.text.getLast?.or (f.skipped.getLast?)).or before
          if f.text.isEmpty then
            match rest with
            | [] => if blocked then ([], []) else ([f], [])
            | c :: more =>
                if blocked then allFrom p fuel false [c] (some c) more
                else
                  let (fs, left) := allFrom p fuel false [c] (some c) more
                  (f :: fs, left)
          else
            let (fs, left) := allFrom p fuel true [] last rest
            (f :: fs, left)

/-- The matches of a text from left to right, and what follows the last one. -/
def all (p : Pattern) (cs : List Char) : List Found × List Char :=
  allFrom p (2 * cs.length + 2) false [] none cs

/-- Matches with their places in the text, of which the first is looked for from a place on. -/
def placed : Nat → List Found → List (Nat × List Char)
  | _, [] => []
  | n, f :: rest =>
      let place := n + f.skipped.length
      (place, f.text) :: placed (place + f.text.length) rest

/-- The matches of a text that are not empty, with their places. -/
def found (p : Pattern) (cs : List Char) : List (Nat × List Char) :=
  (placed 0 (p.all cs).1).filter (fun m => !m.2.isEmpty)

end Pattern

end ScanGraph.Shell
