import AdaptiveBatch.Text.Hex

/-!
# Quoted text in JSON

A quoted text is a run of pieces up to the closing quote: characters, and 16-bit
units that were written as `\u` escapes.  Two units that are the halves of one
character stand for it; half a character alone stands for nothing, which is no
fault of the syntax.
-/

namespace AdaptiveBatch
namespace Json

inductive Piece where
  | char (c : Char)
  | unit (n : Nat)
  deriving DecidableEq, Repr

/-- The character that a one-letter escape stands for. -/
def escaped? (c : Char) : Option Char :=
  match c with
  | '"' => some '"'
  | '\\' => some '\\'
  | '/' => some '/'
  | 'b' => some '\x08'
  | 'f' => some '\x0c'
  | 'n' => some '\n'
  | 'r' => some '\r'
  | 't' => some '\t'
  | _ => none

/-- The pieces up to the closing quote, and what follows it.  Control characters
have to be escaped. -/
def pieces : List Char → Option (List Piece × List Char)
  | [] => none
  | '"' :: r => some ([], r)
  | '\\' :: 'u' :: a :: b :: c :: d :: r => do
    let n ← Text.hexValue? [a, b, c, d]
    let (ps, r) ← pieces r
    return (.unit n :: ps, r)
  | '\\' :: e :: r => do
    let c ← escaped? e
    let (ps, r) ← pieces r
    return (.char c :: ps, r)
  | c :: r =>
    if c < ' ' ∨ c = '\\' then none
    else do
      let (ps, r) ← pieces r
      return (.char c :: ps, r)

def isHighHalf (n : Nat) : Bool := 0xD800 ≤ n && n < 0xDC00

def isLowHalf (n : Nat) : Bool := 0xDC00 ≤ n && n < 0xE000

/-- The text that the pieces stand for, unless half a character stands alone. -/
def join? : List Piece → Option (List Char)
  | [] => some []
  | .char c :: r => (join? r).map (c :: ·)
  | .unit n :: r =>
    if isHighHalf n then
      match r with
      | .unit m :: r =>
        if isLowHalf m then
          (join? r).map (Char.ofNat (0x10000 + (n - 0xD800) * 0x400 + (m - 0xDC00)) :: ·)
        else none
      | _ => none
    else if isLowHalf n then none
    else (join? r).map (Char.ofNat n :: ·)

/-- A character inside quotes.  What has a short escape is written with it, other
control characters by their number. -/
def escape (c : Char) : List Char :=
  match c with
  | '"' => ['\\', '"']
  | '\\' => ['\\', '\\']
  | '\x08' => ['\\', 'b']
  | '\x0c' => ['\\', 'f']
  | '\n' => ['\\', 'n']
  | '\r' => ['\\', 'r']
  | '\t' => ['\\', 't']
  | c => if c < ' ' then '\\' :: 'u' :: Text.hex4 Text.lowerHex c.toNat else [c]

def quote (s : String) : List Char := '"' :: (s.toList.flatMap escape ++ ['"'])

end Json
end AdaptiveBatch
