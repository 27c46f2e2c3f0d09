import Intercore.Text.CharClass

/-!
# Quoted text

Text between double quotes, with escapes for what would break the quotes or would not show.
-/

namespace Intercore.Text

/-- The digits of a number in base sixteen, lower case. -/
def hexDigits (n : Nat) : List Char := Nat.toDigits 16 n

/-- A number in base sixteen, marked as such. -/
def hex (n : Nat) : String := "0x" ++ String.ofList (hexDigits n)

/-- One character within double quotes. A mark that would join the character before it is
escaped like one that does not show. -/
def escape (c : Char) : List Char :=
  match c with
  | '\x00' => ['\\', '0']
  | '\t' => ['\\', 't']
  | '\r' => ['\\', 'r']
  | '\n' => ['\\', 'n']
  | '\\' => ['\\', '\\']
  | '"' => ['\\', '"']
  | _ =>
    if isPrintable c && !isExtending c then [c]
    else ['\\', 'u', '\x7b'] ++ hexDigits c.toNat ++ ['\x7d']

def quote (s : String) : String :=
  String.ofList (['"'] ++ s.toList.flatMap escape ++ ['"'])

end Intercore.Text
