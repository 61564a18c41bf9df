namespace TrafficIntent.Yaml

/-- What has been read of a scalar: its text, last character first, the blanks after it, the first
of the line breaks after it and the further ones. -/
structure Folding where
  reversed : List Char
  blanks : List Char
  first : List Char
  further : List Char

namespace Folding

def empty : Folding := ⟨[], [], [], []⟩

def text (f : Folding) : List Char := f.reversed.reverse

def push (f : Folding) (c : Char) : Folding := { f with reversed := c :: f.reversed }

def append (f : Folding) (cs : List Char) : Folding :=
  { f with reversed := cs.reverse ++ f.reversed }

/-- The line breaks as they are read where they are folded. A first one of another kind than the
usual is not. -/
def folded (f : Folding) : List Char :=
  if f.first == ['\n'] then if f.further.isEmpty then [' '] else f.further
  else f.first ++ f.further

/-- The text with what is after it folded in: line breaks, if there were any, and blanks
otherwise. -/
def join (f : Folding) (broken : Bool) : Folding :=
  ⟨(if broken then f.folded else f.blanks).reverse ++ f.reversed, [], [], []⟩

/-- Takes in a blank; blanks around line breaks do not count. -/
def blank (f : Folding) (broken : Bool) (c : Char) : Folding :=
  if broken then f else { f with blanks := f.blanks ++ [c] }

/-- Takes in a line break, the first or a further one. -/
def lineBreak (f : Folding) (broken : Bool) (b : List Char) : Folding :=
  if broken then { f with further := f.further ++ b } else { f with blanks := [], first := b }

end Folding

end TrafficIntent.Yaml
