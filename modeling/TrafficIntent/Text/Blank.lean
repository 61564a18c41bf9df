/-!
Blank text. A character is blank if it has the Unicode property White_Space; a text is blank if all
its characters are.
-/

namespace TrafficIntent.Text

/-- The characters with the property White_Space. -/
def isSpace (c : Char) : Bool :=
  let n := c.toNat
  (0x09 ≤ n && n ≤ 0x0D) || n == 0x20 || n == 0x85 || n == 0xA0 || n == 0x1680 ||
    (0x2000 ≤ n && n ≤ 0x200A) || n == 0x2028 || n == 0x2029 || n == 0x202F || n == 0x205F ||
    n == 0x3000

/-- Text without a character that is not a space, the empty text included. -/
def isBlank (s : String) : Bool := s.toList.all isSpace

end TrafficIntent.Text
