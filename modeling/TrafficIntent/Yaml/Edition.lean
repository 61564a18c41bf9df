/-!
Characters of YAML text, in the two editions of the notation that are read here. The end of a text
reads as the character NUL.
-/

namespace TrafficIntent.Yaml

/-- Intents follow the older edition, manifests the newer one. -/
inductive Edition where
  | v11
  | v12
  deriving DecidableEq

/-- What is read at the end of a text. -/
def endChar : Char := '\x00'

def isBlank (c : Char) : Bool := c == ' ' || c == '\t'

/-- The older edition has three more line breaks. -/
def isBreak (e : Edition) (c : Char) : Bool :=
  c == '\n' || c == '\r' ||
    (e = .v11 && (c == '\x85' || c == '\u2028' || c == '\u2029'))

def isBreakOrEnd (e : Edition) (c : Char) : Bool := isBreak e c || c == endChar

def isBlankOrEnd (e : Edition) (c : Char) : Bool := isBlank c || isBreakOrEnd e c

/-- Punctuation of lists and maps between brackets. -/
def isFlow (c : Char) : Bool := [',', '[', ']', '{', '}'].contains c

/-- Letters and digits of names. -/
def isWord (c : Char) : Bool := c.isAlphanum || c == '_' || c == '-'

def byteOrderMark : Char := '\ufeff'

/-- In the newer edition a name may be of any characters that do not end it. -/
def isAnchorChar (e : Edition) (c : Char) : Bool :=
  match e with
  | .v11 => isWord c
  | .v12 => !isBlankOrEnd e c && c != byteOrderMark && !isFlow c

/-- What may follow a name in the older edition. -/
def isAnchorEnd (c : Char) : Bool :=
  isBlankOrEnd .v11 c || ['?', ':', ',', ']', '}', '%', '@', '\x60'].contains c

private def isTagPunctuation (c : Char) : Bool :=
  [';', '/', '?', ':', '@', '&', '=', '+', '$', '.', '%', '~', '*', '\x27', '(', ')'].contains c

/-- Characters of a tag. A verbatim tag stands between angle brackets and may have more of them. -/
def isTagChar (e : Edition) (verbatim : Bool) (c : Char) : Bool :=
  isWord c || isTagPunctuation c || (verbatim && [',', '[', ']', '!'].contains c) ||
    (match e with
      | .v11 => c == '!'
      | .v12 => c == '#')

/-- Characters that the older edition admits anywhere in a text. -/
def isAdmitted (c : Char) : Bool :=
  let n := c.toNat
  n == 0x09 || n == 0x0A || n == 0x0D || (0x20 ≤ n && n ≤ 0x7E) || n == 0x85 ||
    (0xA0 ≤ n && n ≤ 0xFFFD) || 0x10000 ≤ n

def hexValue? (c : Char) : Option Nat :=
  if c.isDigit then some (c.toNat - '0'.toNat)
  else if 'a' ≤ c && c ≤ 'f' then some (c.toNat - 'a'.toNat + 10)
  else if 'A' ≤ c && c ≤ 'F' then some (c.toNat - 'A'.toNat + 10)
  else none

/-- The number that hexadecimal digits write. -/
def hexNumber? (cs : List Char) : Option Nat :=
  cs.foldlM (fun n c => (hexValue? c).map (16 * n + ·)) 0

/-- The character of a number, if there is one. -/
def char? (n : Nat) : Option Char := if n.isValidChar then some (Char.ofNat n) else none

end TrafficIntent.Yaml
