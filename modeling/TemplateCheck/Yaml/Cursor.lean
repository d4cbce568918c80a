/-!
This module contains the classes of characters that YAML tells apart, and cursors, which count lines
and columns while a text is read. What is repeated is counted down from the length of the text.
-/

namespace TemplateCheck

namespace Yaml

def isPrintable (c : Char) : Bool :=
  c == '\t' || c == '\n' || c == '\r' || (' ' ≤ c && c ≤ '~') || c == '\x85' ||
    ('\xa0' ≤ c && c ≤ '\uFFFD') || 0x10000 ≤ c.toNat

def isSpace (c : Char) : Bool :=
  c == ' ' || c == '\t'

def isBreak (c : Char) : Bool :=
  c == '\n' || c == '\r' || c == '\x85' || c == '\u2028' || c == '\u2029'

def startsApart : List Char → Bool
  | [] => true
  | c :: _ => isSpace c || isBreak c

structure Cursor where
  rest : List Char
  index : Nat := 0
  line : Nat := 0
  column : Nat := 0
  deriving Repr

namespace Cursor

def skip (c : Cursor) (n : Nat) : Cursor :=
  { c with rest := c.rest.drop n, index := c.index + n, column := c.column + n }

def span (c : Cursor) (p : Char → Bool) : List Char × Cursor :=
  let run := c.rest.takeWhile fun x => p x && !isBreak x
  (run, c.skip run.length)

def newLine (c : Cursor) (n : Nat) : Cursor :=
  { rest := c.rest.drop n, index := c.index + n, line := c.line + 1, column := 0 }

/--
Reads the end of a line: the character that stands for it, and the start of the next line. A
carriage return with a line feed is one end; only the two Unicode separators stand for themselves.
-/
def readBreak? (c : Cursor) : Option (Char × Cursor) :=
  match c.rest with
  | '\r' :: '\n' :: _ => some ('\n', c.newLine 2)
  | x :: _ =>
    if x == '\u2028' || x == '\u2029' then some (x, c.newLine 1)
    else if isBreak x then some ('\n', c.newLine 1)
    else none
  | [] => none

def atMarker (c : Cursor) (word : List Char) : Bool :=
  c.column == 0 &&
    match word.isPrefixOf? c.rest with
    | some rest => startsApart rest
    | none => false

def atBoundary (c : Cursor) : Bool :=
  c.atMarker ['-', '-', '-'] || c.atMarker ['.', '.', '.']

def readBreaks? (admits : List Char → Bool) : Nat → Cursor → Option (List Char × Cursor)
  | 0, c => some ([], c)
  | n + 1, c =>
    match c.readBreak? with
    | none => some ([], c)
    | some (b, c) =>
      let (spaces, c) := c.span isSpace
      if admits spaces then
        (readBreaks? admits n c).map fun (breaks, c) => (b :: breaks, c)
      else
        none

end Cursor

end Yaml

end TemplateCheck
