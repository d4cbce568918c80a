import TemplateCheck.Decimal.Numeral
import TemplateCheck.Text.Alphanumeric
import TemplateCheck.Text.Quoted

/-!
This module contains the written form of the parts of a path: keys, and the comparison with a value.
-/

namespace TemplateCheck

namespace Path

def isNumeralChar (c : Char) : Bool :=
  c.isDigit || c == '+' || c == '-' || c == '.' || c == 'e' || c == 'E'

/--
Whether a text reads as a number: it has a digit, all its characters may stand in a numeral, and
it reads as a floating point value. Words such as `inf` are no numbers.
-/
def looksLikeNumber (s : List Char) : Bool :=
  s.any Char.isDigit && s.all isNumeralChar && (Binary64.read? s).isSome

def comparison (s : List Char) : List Char :=
  if looksLikeNumber s then '=' :: '=' :: ' ' :: s else 'e' :: 'q' :: ' ' :: Text.quoted '\'' s

def isKeyChar (c : Char) : Bool :=
  Text.isAlphanumeric c || c == '_' || c == '-'

def isPlainKey (s : List Char) : Bool :=
  !s.isEmpty && s.all isKeyChar

def keySegment (quoteAll : Bool) (s : List Char) : List Char :=
  if !quoteAll && isPlainKey s then s else Text.quoted '"' s

end Path

end TemplateCheck
