import TrafficIntent.Json.Cursor

namespace TrafficIntent.Json

def hexDigit? (c : Char) : Option Nat :=
  if '0' ≤ c ∧ c ≤ '9' then some (c.toNat - '0'.toNat)
  else if 'a' ≤ c ∧ c ≤ 'f' then some (c.toNat - 'a'.toNat + 10)
  else if 'A' ≤ c ∧ c ≤ 'F' then some (c.toNat - 'A'.toNat + 10)
  else none

def hexQuad? (a b c d : Char) : Option Nat := do
  return 4096 * (← hexDigit? a) + 256 * (← hexDigit? b) + 16 * (← hexDigit? c) + (← hexDigit? d)

/-- The letters that name a character after a backslash. -/
def shortEscape? : Char → Option Char
  | '\x22' => some '\x22'
  | '\\' => some '\\'
  | '/' => some '/'
  | 'b' => some '\x08'
  | 'f' => some '\x0c'
  | 'n' => some '\n'
  | 'r' => some '\r'
  | 't' => some '\t'
  | _ => none

private def fault {α : Type} (m : Malformed) (p : Position) : Except Fault α :=
  .error ⟨.malformed m, p⟩

/-- The fault where four hexadecimal digits should stand. -/
private def quadFault {α : Type} (p : Position) (cs : List Char) : Except Fault α :=
  if (String.ofList cs).utf8ByteSize < 4 then fault .stringCut (p.pastAll cs)
  else fault .badEscape (p.pastBytes 4 cs)

private def Position.right (p : Position) (n : Nat) : Position := ⟨p.line, p.column + n⟩

/-- The fault after a leading surrogate where `\u` should stand. -/
private def pairFault {α : Type} (p : Position) : List Char → Except Fault α
  | [] => fault .stringCut p
  | '\\' :: [] => fault .stringCut (p.right 1)
  | '\\' :: c :: _ => fault .surrogateCut ((p.right 1).pastByte c)
  | c :: _ => fault .surrogateCut (p.pastByte c)

/-- The characters of a string up to its closing quote, and the cursor past it. -/
def stringBody : List Char → Position → Except Fault (List Char × Cursor)
  | [], p => fault .stringCut p
  | '\x22' :: r, p => .ok ([], ⟨r, p.right 1⟩)
  | '\\' :: [], p => fault .stringCut (p.right 1)
  | '\\' :: 'u' :: a :: b :: c :: d :: r, p =>
    match hexQuad? a b c d with
    | none => quadFault (p.right 2) (a :: b :: c :: d :: r)
    | some n =>
      if n < 0xD800 ∨ 0xDFFF < n then do
        let (cs, k) ← stringBody r (p.right 6)
        return (Char.ofNat n :: cs, k)
      else if 0xDC00 ≤ n then fault .loneSurrogate (p.right 6)
      else
        match r with
        | '\\' :: 'u' :: a' :: b' :: c' :: d' :: r' =>
          match hexQuad? a' b' c' d' with
          | none => quadFault (p.right 8) (a' :: b' :: c' :: d' :: r')
          | some n' =>
            if n' < 0xDC00 ∨ 0xDFFF < n' then fault .loneSurrogate (p.right 12)
            else do
              let (cs, k) ← stringBody r' (p.right 12)
              return (Char.ofNat (0x10000 + 0x400 * (n - 0xD800) + (n' - 0xDC00)) :: cs, k)
        | '\\' :: 'u' :: r' => quadFault (p.right 8) r'
        | r => pairFault (p.right 6) r
  | '\\' :: 'u' :: r, p => quadFault (p.right 2) r
  | '\\' :: e :: r, p =>
    match shortEscape? e with
    | none => fault .badEscape ((p.right 1).pastByte e)
    | some c => do
      let (cs, k) ← stringBody r (p.right 2)
      return (c :: cs, k)
  | c :: r, p =>
    if c < ' ' then fault .controlCharacter (p.pastByte c)
    else do
      let (cs, k) ← stringBody r (p.past c)
      return (c :: cs, k)

/-- The cursor past a string's closing quote. Escapes are recognized and need not name
characters. -/
def stringEnd : List Char → Position → Except Fault Cursor
  | [], p => fault .stringCut p
  | '\x22' :: r, p => .ok ⟨r, p.right 1⟩
  | '\\' :: [], p => fault .stringCut (p.right 1)
  | '\\' :: 'u' :: a :: b :: c :: d :: r, p =>
    match hexQuad? a b c d with
    | none => quadFault (p.right 2) (a :: b :: c :: d :: r)
    | some _ => stringEnd r (p.right 6)
  | '\\' :: 'u' :: r, p => quadFault (p.right 2) r
  | '\\' :: e :: r, p =>
    match shortEscape? e with
    | none => fault .badEscape ((p.right 1).pastByte e)
    | some _ => stringEnd r (p.right 2)
  | c :: r, p => if c < ' ' then fault .controlCharacter p else stringEnd r (p.past c)

namespace Scan

/-- A string after its opening quote. -/
def stringRest : Scan String := do
  let k ← get
  let (cs, k) ← stringBody k.rest k.position
  set k
  return String.ofList cs

def skipStringRest : Scan Unit := do
  let k ← get
  set (← stringEnd k.rest k.position)

end Scan

end TrafficIntent.Json
