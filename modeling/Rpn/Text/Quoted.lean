import Rpn.Text.Mark
import Rpn.Text.Unprintable
/-!
Quoted texts and characters. Every character stays visible: the usual controls have short escapes,
the quote in use and the backslash are escaped by a backslash, and what has no shape of its own is
written by its code point.
-/
namespace Rpn.Text

def codeEscape (c : Char) : List Char :=
  ['\\', 'u', '{'] ++ Nat.toDigits 16 c.toNat ++ ['}']

def escape (quote c : Char) : List Char :=
  match c with
  | '\x00' => ['\\', '0']
  | '\t' => ['\\', 't']
  | '\n' => ['\\', 'n']
  | '\r' => ['\\', 'r']
  | '\\' => ['\\', '\\']
  | c =>
    if c = quote then ['\\', c]
    else if isMark c || isUnprintable c then codeEscape c
    else [c]

def quoted (text : List Char) : String :=
  String.ofList (['\x22'] ++ text.flatMap (escape '\x22') ++ ['\x22'])

def quotedChar (c : Char) : String :=
  String.ofList (['\x27'] ++ escape '\x27' c ++ ['\x27'])

end Rpn.Text
