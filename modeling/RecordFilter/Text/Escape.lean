import RecordFilter.Text.Character
import RecordFilter.Unicode.GraphemeExtend
import RecordFilter.Unicode.Unprintable

/-!
Quoted text for messages and listings. Every character that has no form of its own, or would
attach itself to its neighbour, is written as an escape, so that what is shown can be read back.
-/
namespace RecordFilter

/-- The halfwidth voiced and semi-voiced sound marks. Of the characters that extend a grapheme
they alone are letters, with a width of their own. -/
def isHalfwidthSoundMark (c : Char) : Bool := c == '\uff9e' || c == '\uff9f'

/-- Characters that would be drawn onto the one before them. -/
def isAttached (c : Char) : Bool :=
  inRanges c.toNat Unicode.graphemeExtendRanges && !isHalfwidthSoundMark c

/-- Characters that are shown by their code point. -/
def needsCodePoint (c : Char) : Bool :=
  isAttached c || inRanges c.toNat Unicode.unprintableRanges

def codePointEscape (c : Char) : List Char :=
  ['\\', 'u', '\x7b'] ++ Nat.toDigits 16 c.toNat ++ ['\x7d']

/-- A character as it stands between two quotes of the given kind. -/
def escaped (quote c : Char) : List Char :=
  if c = '\x00' then ['\\', '0']
  else if c = '\t' then ['\\', 't']
  else if c = '\r' then ['\\', 'r']
  else if c = '\n' then ['\\', 'n']
  else if c = '\\' || c = quote then ['\\', c]
  else if needsCodePoint c then codePointEscape c
  else [c]

def quotedWith (quote : Char) (cs : List Char) : String :=
  String.ofList (quote :: cs.flatMap (escaped quote) ++ [quote])

def quotedText (s : String) : String := quotedWith '"' s.toList

def quotedChar (c : Char) : String := quotedWith '\x27' [c]

end RecordFilter
