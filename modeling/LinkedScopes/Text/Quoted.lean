import LinkedScopes.Text.Combining
import LinkedScopes.Text.Ignorable
import LinkedScopes.Text.Unprintable

/-! Quoted text: a string between double quotes with everything that could not be
seen, or that would end the string, escaped. An apostrophe stands as it is. -/
namespace LinkedScopes.Text

/-- A character that cannot be told from its neighbours in print. ASCII is decided
without the tables, which hold no other ASCII code points than these. -/
def isHidden (c : Char) : Bool :=
  if c.toNat < 0x80 then c.toNat < 0x20 || c.toNat == 0x7F
  else combiningRuns.has c || unprintableRuns.has c || ignorableRuns.has c

/-- One character as it stands between the quotes. -/
def escape (c : Char) : List Char :=
  match c with
  | '\x00' => ['\\', '0']
  | '\t' => ['\\', 't']
  | '\r' => ['\\', 'r']
  | '\n' => ['\\', 'n']
  | '"' => ['\\', '"']
  | '\\' => ['\\', '\\']
  | c => if isHidden c then
      ['\\', 'u', '\x7b'] ++ Nat.toDigits 16 c.toNat ++ ['\x7d']
    else [c]

def quoted (text : String) : String :=
  String.ofList ('"' :: text.toList.flatMap escape ++ ['"'])

end LinkedScopes.Text
