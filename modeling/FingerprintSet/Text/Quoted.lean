import FingerprintSet.Text.Unprintable

/-!
# Quoted text

The form in which names and paths stand in messages: between double quotes, with quotes,
backslashes and invisible characters escaped.
-/

namespace FingerprintSet.Text

/-- The hexadecimal digits of a number, without leading zeros. -/
def hexDigits (n : Nat) : List Char :=
  Nat.toDigits 16 n

/-- A character inside quotes. -/
def quotedChar (c : Char) : List Char :=
  match c with
  | '"' => ['\\', '"']
  | '\\' => ['\\', '\\']
  | '\t' => ['\\', 't']
  | '\n' => ['\\', 'n']
  | '\r' => ['\\', 'r']
  | '\x00' => ['\\', '0']
  | c =>
      if isUnprintable c then
        '\\' :: 'u' :: '\x7b' :: (hexDigits c.toNat ++ ['\x7d'])
      else
        [c]

/-- A text between quotes. -/
def quoted (text : String) : String :=
  String.ofList ('"' :: text.toList.flatMap quotedChar ++ ['"'])

end FingerprintSet.Text
