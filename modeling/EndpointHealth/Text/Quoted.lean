import EndpointHealth.Text.Hex
import EndpointHealth.Text.Shown
set_option autoImplicit false

/-!
Texts in quotation marks, as messages show them: quotation marks, backslashes, the common controls
and every character without a shape of its own are escaped.
-/

namespace EndpointHealth.Text

def quotedChar (c : Char) : List Char :=
  match c with
  | '\x00' => ['\\', '0']
  | '\t' => ['\\', 't']
  | '\r' => ['\\', 'r']
  | '\n' => ['\\', 'n']
  | '"' => ['\\', '"']
  | '\\' => ['\\', '\\']
  | c =>
    if isShownByCodePoint c then ['\\', 'u', '\x7b'] ++ Hex.ofNat c.toNat ++ ['\x7d'] else [c]

def quoted (s : String) : String := String.ofList ('"' :: s.toList.flatMap quotedChar ++ ['"'])

end EndpointHealth.Text
