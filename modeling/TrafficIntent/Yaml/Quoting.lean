import TrafficIntent.Yaml.Scalar
import TrafficIntent.Yaml.Token

/-!
How a text is written as a scalar. A text stands plainly if it then reads back as itself; otherwise
it goes between quotes, or line by line into a block if it has line breaks.
-/

namespace TrafficIntent.Yaml

/-- Characters that can stand for themselves within a scalar. -/
def isWritable (c : Char) : Bool :=
  let n := c.toNat
  n == 0x0A || (0x20 ≤ n && n ≤ 0x7E) || (0xA0 ≤ n && n ≤ 0xFFFD && n != 0xFEFF) || 0x10000 ≤ n

def isLineBreak (c : Char) : Bool := isBreak .v11 c

def isGap (c : Char) : Bool := isBlankOrEnd .v11 c

/-- Whether some character and the next one are of two kinds. -/
def hasPair (p q : Char → Bool) : List Char → Bool
  | a :: b :: cs => (p a && q b) || hasPair p q (b :: cs)
  | _ => false

/-- Characters that mark something if a scalar starts with them. -/
def isIndicator (c : Char) : Bool :=
  ['#', ',', '[', ']', '{', '}', '&', '*', '!', '|', '>', '\x27', '\x22', '%', '@',
    '\x60'].contains c

/-- Whether a text would be taken for something else: a mark at its start, a colon that ends a key,
or a comment. -/
def hasIndicator (cs : List Char) : Bool :=
  let starts : Bool := match cs with
    | c :: rest =>
      isIndicator c || ((c == '?' || c == '-') && (rest.head?.map isGap).getD true) ||
        ['-', '-', '-'].isPrefixOf cs || ['.', '.', '.'].isPrefixOf cs
    | [] => false
  starts || hasPair (· == ':') isGap cs || cs.getLast? == some ':' || hasPair isGap (· == '#') cs

/-- How a text may be written. -/
structure Layout where
  multiline : Bool
  plain : Bool
  singleQuoted : Bool
  block : Bool
  deriving DecidableEq

/-- Spaces and line breaks at the ends of a text, next to each other or among characters that need
escapes do not read back from every style. -/
def Layout.ofText (cs : List Char) : Layout :=
  let ends (p : Char → Bool) : Bool := (cs.head?.map p).getD false || (cs.getLast?.map p).getD false
  let isSpace : Char → Bool := (· == ' ')
  let multiline := cs.any isLineBreak
  let special := hasPair isSpace isLineBreak cs || cs.any (fun c => !isWritable c)
  let breakSpace := hasPair isLineBreak isSpace cs
  { multiline := multiline
    plain := !(ends isSpace || ends isLineBreak || breakSpace || special || multiline ||
      hasIndicator cs)
    singleQuoted := !(breakSpace || special)
    block := !(cs.getLast? == some ' ' || special) }

/-- Whether a plain scalar with this text would be something else than a text, or look like it. -/
def isAmbiguous (s : String) : Bool :=
  isZeroFilled s || plainFound s != .string s

/-- The style of a text. -/
def styleOf (s : String) : Style :=
  let cs := s.toList
  let layout := Layout.ofText cs
  if cs.contains '\n' then if layout.block then .literal else .doubleQuoted
  else if layout.plain && !isAmbiguous s then .plain
  else if layout.singleQuoted then .singleQuoted
  else .doubleQuoted

def spaces (n : Nat) : List Char := List.replicate n ' '

/-- Characters with the lines that they start indented. Lines without a character are left empty. -/
def indented (n : Nat) : Bool → List Char → List Char
  | _, [] => []
  | afterBreak, c :: cs =>
    if isLineBreak c then c :: indented n true cs
    else if afterBreak then spaces n ++ c :: indented n false cs
    else c :: indented n false cs

private def upperHex (width n : Nat) : List Char :=
  let ds := (Nat.toDigits 16 n).map Char.toUpper
  List.replicate (width - ds.length) '0' ++ ds

/-- A character between double quotes. -/
def escapedChar (c : Char) : List Char :=
  match c with
  | '\x00' => ['\\', '0']
  | '\x07' => ['\\', 'a']
  | '\x08' => ['\\', 'b']
  | '\t' => ['\\', 't']
  | '\n' => ['\\', 'n']
  | '\x0b' => ['\\', 'v']
  | '\x0c' => ['\\', 'f']
  | '\r' => ['\\', 'r']
  | '\x1b' => ['\\', 'e']
  | '\x22' => ['\\', '\x22']
  | '\\' => ['\\', '\\']
  | '\x85' => ['\\', 'N']
  | '\u2028' => ['\\', 'L']
  | '\u2029' => ['\\', 'P']
  | c =>
    let n := c.toNat
    if isWritable c then [c]
    else if n < 0x100 then '\\' :: 'x' :: upperHex 2 n
    else if n < 0x10000 then '\\' :: 'u' :: upperHex 4 n
    else '\\' :: 'U' :: upperHex 8 n

/-- What a block's header says of its end: nothing for one line break, and otherwise whether there
is none or whether to keep them all. -/
def chompingMark (cs : List Char) : List Char :=
  match cs.reverse with
  | c :: rest =>
    if !isLineBreak c then ['-'] else if (rest.head?.map isLineBreak).getD true then ['+'] else []
  | [] => ['-']

/-- The header of a block gives the indentation where it cannot be seen from the first line. -/
def blockHeaderOf (cs : List Char) : List Char :=
  '|' :: ((if (cs.head?.map fun c => c == ' ' || isLineBreak c).getD false then ['2'] else []) ++
    chompingMark cs)

/-- A text as a scalar whose lines are indented. -/
def scalarText (indent : Nat) (s : String) : List Char :=
  let cs := s.toList
  match styleOf s with
  | .literal => blockHeaderOf cs ++ '\n' :: indented indent true cs
  | .singleQuoted =>
    let body := indented indent false (cs.flatMap fun c => if c == '\x27' then [c, c] else [c])
    let tail := if (cs.getLast?.map isLineBreak).getD false then spaces indent else []
    '\x27' :: body ++ tail ++ ['\x27']
  | .doubleQuoted => '\x22' :: cs.flatMap escapedChar ++ ['\x22']
  | _ => cs

end TrafficIntent.Yaml
