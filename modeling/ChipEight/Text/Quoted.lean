import ChipEight.Text.Printable

/-!
Text in quotes, so that every character can be seen. Single quotes are used unless the text holds
single quotes and no double ones. Backslashes and the quote in use are escaped with a backslash,
tab and line ends by their letters, other invisible characters by their code points.
-/

namespace ChipEight.Quoted

/-- The quote that goes around a text. -/
def quoteFor (cs : List Char) : Char :=
  if cs.contains '\'' && !cs.contains '"' then '"' else '\''

/-- A code point as a letter and at least `width` hexadecimal digits behind a backslash. -/
def codePoint (letter : Char) (width : Nat) (n : Nat) : List Char :=
  let ds := Nat.toDigits 16 n
  '\\' :: letter :: (List.replicate (width - ds.length) '0' ++ ds)

/-- What stands between quotes for a character. -/
def escape (quote c : Char) : List Char :=
  if c = quote || c = '\\' then ['\\', c]
  else if c = '\t' then ['\\', 't']
  else if c = '\n' then ['\\', 'n']
  else if c = '\r' then ['\\', 'r']
  else if Printable.isPrintable c then [c]
  else if c.toNat < 0x100 then codePoint 'x' 2 c.toNat
  else if c.toNat < 0x10000 then codePoint 'u' 4 c.toNat
  else codePoint 'U' 8 c.toNat

/-- The text in quotes. -/
def literal (text : String) : String :=
  let cs := text.toList
  let quote := quoteFor cs
  String.ofList (quote :: (cs.flatMap (escape quote) ++ [quote]))

end ChipEight.Quoted
