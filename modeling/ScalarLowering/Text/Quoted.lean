import ScalarLowering.Text.Visible

/-!
Text between double quotes, as listings show it. The quote, the backslash and four controls have
short escapes; other hidden characters are written by their code points. A single quote stands for
itself.
-/

namespace ScalarLowering.Quoted

/-- The escape of a code point: its hexadecimal digits between braces. -/
def codePoint (c : Char) : List Char :=
  ['\\', 'u', '\x7b'] ++ Nat.toDigits 16 c.toNat ++ ['\x7d']

def escape (c : Char) : List Char :=
  match c with
  | '\x22' => ['\\', '\x22']
  | '\\' => ['\\', '\\']
  | '\n' => ['\\', 'n']
  | '\r' => ['\\', 'r']
  | '\t' => ['\\', 't']
  | '\x00' => ['\\', '0']
  | c => if Visible.isVisible c then [c] else codePoint c

def quote (text : String) : String :=
  String.ofList ('\x22' :: text.toList.flatMap escape ++ ['\x22'])

end ScalarLowering.Quoted
