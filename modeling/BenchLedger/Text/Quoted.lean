import BenchLedger.Text.LowerCase
import BenchLedger.Text.PrintTables

/-!
Quoted text: a path between double quotes, in which the double quote, the backslash and every
character without a glyph of its own are escaped.
-/

namespace BenchLedger.Text

def isGlyphless (c : Char) : Bool :=
  inBounds glyphlessBounds c.toNat

/-- Lower-case hexadecimal digits without leading zeros. -/
def hexDigits (n : Nat) : List Char :=
  Nat.toDigits 16 n

def escapeChar (c : Char) : List Char :=
  if c == '\t' then ['\\', 't']
  else if c == '\r' then ['\\', 'r']
  else if c == '\n' then ['\\', 'n']
  else if c == Char.ofNat 0 then ['\\', '0']
  else if c == '"' || c == '\\' then ['\\', c]
  else if isGlyphless c then
    ['\\', 'u', Char.ofNat 0x7B] ++ hexDigits c.toNat ++ [Char.ofNat 0x7D]
  else [c]

def quoted (s : String) : String :=
  String.ofList ('"' :: (s.toList.flatMap escapeChar ++ ['"']))

end BenchLedger.Text
