/-
Octets as text: `base64`, `od`, `sha256sum` and `md5sum`.

One of the digests is that of the library, with which fingerprints are taken.
-/
import ScanGraph.Sha256
import ScanGraph.Shell.Format
import ScanGraph.Shell.Utility

namespace ScanGraph.Shell.Utility

/-! ## Six bits a character -/

def digits64 : List Char :=
  "ABCDEFGHIJKLMNOPQRSTUVWXYZabcdefghijklmnopqrstuvwxyz0123456789+/".toList

def digit64 (n : Nat) : Char :=
  digits64.getD n '='

/-- Octets in digits of base 64, three in four. -/
def encode64 : List UInt8 → List Char
  | a :: b :: c :: rest =>
      let n := a.toNat * 65536 + b.toNat * 256 + c.toNat
      digit64 (n / 262144) :: digit64 (n / 4096 % 64) :: digit64 (n / 64 % 64)
        :: digit64 (n % 64) :: encode64 rest
  | [a, b] =>
      let n := a.toNat * 65536 + b.toNat * 256
      [digit64 (n / 262144), digit64 (n / 4096 % 64), digit64 (n / 64 % 64), '=']
  | [a] =>
      let n := a.toNat * 65536
      [digit64 (n / 262144), digit64 (n / 4096 % 64), '=', '=']
  | [] => []

/-- The octets of digits of base 64, and whether all could be read. -/
def decode64 : List Char → List Char × Bool
  | a :: b :: c :: d :: rest =>
      let value (x : Char) : Option Nat := digits64.findIdx? (· == x)
      let octet (n : Nat) : Char := Char.ofNat (n % 256)
      match value a, value b, value c, value d with
      | some i, some j, some k, some l =>
          let (more, isRead) := decode64 rest
          (octet (i * 4 + j / 16) :: octet (j * 16 + k / 4) :: octet (k * 64 + l) :: more, isRead)
      | some i, some j, some k, none =>
          ([octet (i * 4 + j / 16), octet (j * 16 + k / 4)], d == '=' && rest.isEmpty)
      | some i, some j, none, none =>
          ([octet (i * 4 + j / 16)], c == '=' && d == '=' && rest.isEmpty)
      | _, _, _, _ => ([], false)
  | [] => ([], true)
  | _ => ([], false)

/-- A text in lines of a width, each with its end; no width is one line without an end. -/
def wrapped (width : Nat) : Nat → List Char → List Char
  | 0, _ => []
  | fuel + 1, cs =>
      if cs.isEmpty then []
      else if width = 0 then cs
      else cs.take width ++ '\n' :: wrapped width fuel (cs.drop width)

def base64 : Utility := fun c =>
  c.withOptions ⟨"di", "w", [("decode", 'd'), ("wrap", 'w'), ("ignore-garbage", 'i')], false⟩ 1
    (fun o =>
      match o.operands[1]? with
      | some extra => c.advise ("extra operand " ++ Call.quoted extra) 1
      | none =>
          let width := (((o.value? 'w').bind (fun v => Text.natural? v.toList)).getD 76)
          if o.has 'd' then
            let (found, faults) := c.contents o.operands Call.plainly
            let text := found.flatMap Content.text
            let kept := text.filter (fun x =>
              x != '\n' && (!o.has 'i' || digits64.contains x || x == '='))
            let (out, isRead) := decode64 kept
            let said := if isRead then [] else c.complaint "invalid input"
            { c.answer out with
              writes := [(1, out), (2, faults ++ said)]
              status := if isRead && faults.isEmpty then 0 else 1 }
          else c.overAll o.operands Call.plainly 1 (fun text =>
            let cs := encode64 (octetsOf text)
            wrapped width (cs.length + 1) cs))

/-! ## Octets as numbers -/

/-- How octets are shown: how many at once, in which base and width, or as characters. -/
structure Dumping where
  size : Nat
  base : Nat
  width : Nat
  isSigned : Bool
  isText : Bool

namespace Dumping

def ofLetters? (cs : List Char) : Option Dumping :=
  match cs with
  | ['c'] => some ⟨1, 8, 3, false, true⟩
  | [k] => ofKind k 4
  | [k, '1'] => ofKind k 1
  | [k, '2'] => ofKind k 2
  | [k, '4'] => ofKind k 4
  | _ => none
where
  /-- The way of showing numbers of a kind and a size. -/
  ofKind (k : Char) (size : Nat) : Option Dumping :=
    match k with
    | 'x' => some ⟨size, 16, 2 * size, false, false⟩
    | 'o' => some ⟨size, 8, if size = 1 then 3 else if size = 2 then 6 else 11, false, false⟩
    | 'u' => some ⟨size, 10, if size = 1 then 3 else if size = 2 then 5 else 10, false, false⟩
    | 'd' => some ⟨size, 10, if size = 1 then 4 else if size = 2 then 6 else 11, true, false⟩
    | _ => none

def char (c : Char) : List Char :=
  match c with
  | '\x00' => ['\\', '0']
  | '\x07' => ['\\', 'a']
  | '\x08' => ['\\', 'b']
  | '\t' => ['\\', 't']
  | '\n' => ['\\', 'n']
  | '\x0b' => ['\\', 'v']
  | '\x0c' => ['\\', 'f']
  | '\r' => ['\\', 'r']
  | c =>
      if ' ' ≤ c ∧ c ≤ '~' then [c]
      else
        let ds := Nat.toDigits 8 c.toNat
        List.replicate (3 - ds.length) '0' ++ ds

/-- One number or character in its field. -/
def field (d : Dumping) (cs : List Char) : List Char :=
  let text : List Char :=
    if d.isText then cs.flatMap char
    else
      let n := cs.reverse.foldl (fun n c => 256 * n + c.toNat) 0
      let top := Nat.pow 256 d.size
      if d.isSigned then
        (if 2 * n < top then Text.decimal n else '-' :: Text.decimal (top - n))
      else
        let ds := Nat.toDigits d.base n
        if d.base = 10 then ds else List.replicate (d.width - ds.length) '0' ++ ds
  ' ' :: (List.replicate (d.width - text.length) ' ' ++ text)

/-- The fields of a line, at most `fuel`. -/
def fields (d : Dumping) : Nat → List Char → List Char
  | 0, _ => []
  | _, [] => []
  | fuel + 1, cs => d.field (cs.take d.size) ++ fields d fuel (cs.drop d.size)

end Dumping

/-- A number in some base with zeros in front. -/
def addressText (base : Char) (n : Nat) : List Char :=
  let inBase (b width : Nat) : List Char :=
    let ds := Nat.toDigits b n
    List.replicate (width - ds.length) '0' ++ ds
  match base with
  | 'n' => []
  | 'd' => inBase 10 7
  | 'x' => inBase 16 6
  | _ => inBase 8 7

/-- Lines of octets from an address on; lines that repeat the one before are left out, with a mark
in place of the first. -/
def dumped (base : Char) (ways : List Dumping) (all : Bool) (width : Nat) :
    Nat → Nat → Option (List Char) → Bool → List Char → List Char
  | 0, _, _, _, _ => []
  | fuel + 1, n, last, inRun, cs =>
      if cs.isEmpty then
        (if base == 'n' then [] else addressText base n ++ ['\n'])
      else
        let line := cs.take width
        let next := dumped base ways all width fuel (n + line.length)
        if !all && last == some line && line.length = width then
          (if inRun then [] else ['*', '\n']) ++ next (some line) true (cs.drop width)
        else
          let shown := ways.zipIdx.flatMap (fun (d, k) =>
            (if k = 0 then addressText base n
              else List.replicate (addressText base n).length ' ')
              ++ d.fields width line ++ ['\n'])
          shown ++ next (some line) false (cs.drop width)

def od : Utility := fun c =>
  let rules : OptionRules :=
    ⟨"bcdosxv", "AtNjw", [("address-radix", 'A'), ("format", 't'), ("read-bytes", 'N'),
      ("skip-bytes", 'j'), ("output-duplicates", 'v')], false⟩
  c.withOptions rules 1 (fun o =>
    let spelled : List (List Char) := o.given.flatMap (fun (l, v) => match l with
      | 'b' => [['o', '1']]
      | 'c' => [['c']]
      | 'd' => [['u', '2']]
      | 'o' => [['o', '2']]
      | 's' => [['d', '2']]
      | 'x' => [['x', '2']]
      | 't' => [v.toList]
      | _ => [])
    let spelled := if spelled.isEmpty then [['o', '2']] else spelled
    match spelled.find? (fun t => (Dumping.ofLetters? t).isNone) with
    | some t => c.refuse ("invalid type string " ++ Call.quoted (String.ofList t)) 1
    | none =>
        let number (l : Char) : Option Nat :=
          (o.value? l).bind (fun v => Text.natural? v.toList)
        let base := ((o.value? 'A').bind (fun v => v.toList.head?)).getD 'o'
        let skipped := (number 'j').getD 0
        c.overAll o.operands Call.plainly 1 (fun text =>
          let text := text.drop skipped
          let text := match number 'N' with
            | some n => text.take n
            | none => text
          dumped base (spelled.filterMap Dumping.ofLetters?) (o.has 'v')
            (max 1 ((number 'w').getD 16)) (text.length + 2) skipped none false text))

/-! ## Digests -/

/-- The amounts by which words are turned in the four rounds of a digest of 128 bits. -/
def turns : List (List Nat) :=
  [[7, 12, 17, 22], [5, 9, 14, 20], [4, 11, 16, 23], [6, 10, 15, 21]]

/-- The constants of the steps of a digest of 128 bits. -/
def sines : List UInt32 :=
  [0xd76aa478, 0xe8c7b756, 0x242070db, 0xc1bdceee, 0xf57c0faf, 0x4787c62a, 0xa8304613, 0xfd469501,
   0x698098d8, 0x8b44f7af, 0xffff5bb1, 0x895cd7be, 0x6b901122, 0xfd987193, 0xa679438e, 0x49b40821,
   0xf61e2562, 0xc040b340, 0x265e5a51, 0xe9b6c7aa, 0xd62f105d, 0x02441453, 0xd8a1e681, 0xe7d3fbc8,
   0x21e1cde6, 0xc33707d6, 0xf4d50d87, 0x455a14ed, 0xa9e3e905, 0xfcefa3f8, 0x676f02d9, 0x8d2a4c8a,
   0xfffa3942, 0x8771f681, 0x6d9d6122, 0xfde5380c, 0xa4beea44, 0x4bdecfa9, 0xf6bb4b60, 0xbebfbc70,
   0x289b7ec6, 0xeaa127fa, 0xd4ef3085, 0x04881d05, 0xd9d4d039, 0xe6db99e5, 0x1fa27cf8, 0xc4ac5665,
   0xf4292244, 0x432aff97, 0xab9423a7, 0xfc93a039, 0x655b59c3, 0x8f0ccc92, 0xffeff47d, 0x85845dd1,
   0x6fa87e4f, 0xfe2ce6e0, 0xa3014314, 0x4e0811a1, 0xf7537e82, 0xbd3af235, 0x2ad7d2bb, 0xeb86d391]

structure Quad where
  a : UInt32
  b : UInt32
  c : UInt32
  d : UInt32

/-- A word of a block, its last octet first. -/
def wordAt (block : List UInt8) (k : Nat) : UInt32 :=
  ((block.drop (4 * k)).take 4).reverse.foldl (fun n b => n * 256 + b.toUInt32) 0

/-- A step of a digest of 128 bits over a block. -/
def quadStep (block : List UInt8) (q : Quad) (i : Nat) : Quad :=
  let (f, g) : UInt32 × Nat := match i / 16 with
    | 0 => ((q.b &&& q.c) ||| (~~~q.b &&& q.d), i)
    | 1 => ((q.d &&& q.b) ||| (~~~q.d &&& q.c), (5 * i + 1) % 16)
    | 2 => (q.b ^^^ q.c ^^^ q.d, (3 * i + 5) % 16)
    | _ => (q.c ^^^ (q.b ||| ~~~q.d), 7 * i % 16)
  let sum := q.a + f + sines.getD i 0 + wordAt block g
  let n := UInt32.ofNat ((turns.getD (i / 16) []).getD (i % 4) 0)
  ⟨q.d, q.b + ((sum <<< n) ||| (sum >>> (32 - n))), q.b, q.c⟩

/-- The blocks of a message, at most `fuel`, mixed into four words. -/
def quadBlocks : Nat → Quad → List UInt8 → Quad
  | 0, q, _ => q
  | fuel + 1, q, bs =>
      if bs.isEmpty then q
      else
        let r := (List.range 64).foldl (quadStep (bs.take 64)) q
        quadBlocks fuel ⟨q.a + r.a, q.b + r.b, q.c + r.c, q.d + r.d⟩ (bs.drop 64)

/-- The octets of a number, the last one first. -/
def littleEndian (n : Nat) (length : Nat) : List UInt8 :=
  (List.range length).map (fun k => UInt8.ofNat (n / Nat.pow 256 k % 256))

def md5 (message : List UInt8) : List UInt8 :=
  let zeros := (120 - (message.length + 1) % 64) % 64
  let padded := message ++ 0x80 :: List.replicate zeros 0 ++ littleEndian (8 * message.length) 8
  let q := quadBlocks (padded.length / 64 + 1)
    ⟨0x67452301, 0xefcdab89, 0x98badcfe, 0x10325476⟩ padded
  [q.a, q.b, q.c, q.d].flatMap (fun w => littleEndian w.toNat 4)

/-- The digests of texts with their names. -/
def digests (digest : List UInt8 → List UInt8) : Utility := fun c =>
  c.withOptions ⟨"btcz", "", [("binary", 'b'), ("text", 't')], false⟩ 1 (fun o =>
    let names := if o.operands.isEmpty then ["-"] else o.operands
    let mark := if o.has 'b' then " *" else "  "
    let writes := names.map (fun n => match c.read n with
      | .ok text => (1, (Text.hex (digest (octetsOf text)) ++ mark ++ n ++ "\n").toList)
      | .error f => (2, c.complaint (Call.plainly n f)))
    let failed := writes.any (fun w => w.1 == 2)
    { c.quiet (if failed then 1 else 0) with
      writes, rest := if names.any Call.isInput then [] else c.input })

def sha256sum : Utility := digests Sha256.digest

def md5sum : Utility := digests md5

end ScanGraph.Shell.Utility
