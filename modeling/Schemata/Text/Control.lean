namespace Schemata

/-! Control characters that a terminal obeys. -/

namespace Text

/-- A bell, backspace, form feed, escape or delete, or one of U+0080 to U+009F, written by
its code; any other character as it is. -/
private def shownControl (c : Char) : List Char :=
  match c with
  | '\x07' => "\\x07".toList
  | '\x08' => "\\x08".toList
  | '\x0c' => "\\x0c".toList
  | '\x1b' => "\\x1b".toList
  | '\x7f' => "\\x7f".toList
  | c =>
      if 0x80 ≤ c.toNat && c.toNat ≤ 0x9f then
        ['\\', 'u', '\x7b'] ++ Nat.toDigits 16 c.toNat ++ ['\x7d']
      else [c]

/-- The text with the controls that a terminal obeys written by their codes. -/
def showControls (text : String) : String :=
  String.ofList (text.toList.flatMap shownControl)

end Text

end Schemata
