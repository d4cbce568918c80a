import TemplateCheck.Yaml.Plain
import TemplateCheck.Yaml.Token

/-!
This module contains the block text of a value: every entry of a collection on lines of its own, two
columns per level, sequences in mappings not indented further.
-/

namespace TemplateCheck

namespace Yaml

namespace Block

def isShown (c : Char) : Bool :=
  c == '\n' || (isPrintable c && c != '\t' && c != '\r' && c != '\x85' && c != '\uFEFF')

def leadingMarks : List Char :=
  "#,[]\x7b\x7d&*!|>'\"%@`".toList

def hasMark : Bool → List Char → Bool
  | _, [] => false
  | blank, c :: s =>
    (c == ':' && startsApart s) || (c == '#' && blank) || hasMark (isSpace c || isBreak c) s

def startsWithMark (s : List Char) : Bool :=
  ['-', '-', '-'].isPrefixOf s || ['.', '.', '.'].isPrefixOf s ||
    match s with
    | [] => false
    | c :: rest => leadingMarks.contains c || ((c == '?' || c == '-') && startsApart rest)

def hasSpaceAfterBreak : List Char → Bool
  | a :: b :: s => (isBreak a && b == ' ') || hasSpaceAfterBreak (b :: s)
  | _ => false

def hasSpaceBeforeBreak : List Char → Bool
  | a :: b :: s => (a == ' ' && isBreak b) || hasSpaceBeforeBreak (b :: s)
  | _ => false

def isPadded (s : List Char) : Bool :=
  s.head?.any (fun c => c == ' ' || isBreak c) || s.getLast?.any fun c => c == ' ' || isBreak c

def needsEscapes (s : List Char) : Bool :=
  !s.all isShown || hasSpaceBeforeBreak s

def allowsPlain (s : List Char) : Bool :=
  !needsEscapes s && !isPadded s && !s.any isBreak && !startsWithMark s && !hasMark true s

def allowsSingle (s : List Char) : Bool :=
  !needsEscapes s && !hasSpaceAfterBreak s

def allowsBlock (s : List Char) : Bool :=
  !needsEscapes s && s.getLast? != some ' '

def isAmbiguous (s : List Char) : Bool :=
  match Plain.value? s with
  | some (.string _) => Plain.hasLeadingZero s
  | _ => true

def capitalHex (count n : Nat) : List Char :=
  (Text.hexDigits count n).map Char.toUpper

def escaped (c : Char) : List Char :=
  match (Scalar.escapes.filter fun e => e.1 != '\t').find? fun e => e.2 == c with
  | some (letter, _) => ['\\', letter]
  | none =>
    let n := c.toNat
    if n ≤ 0xFF then '\\' :: 'x' :: capitalHex 2 n
    else if n ≤ 0xFFFF then '\\' :: 'u' :: capitalHex 4 n
    else '\\' :: 'U' :: capitalHex 8 n

def doubleQuoted (s : List Char) : List Char :=
  let shown (c : Char) : List Char :=
    if !isShown c || isBreak c || c == '"' || c == '\\' then escaped c else [c]
  '"' :: (s.flatMap shown ++ ['"'])

def withMargin (margin : List Char) : Bool → List Char → List Char
  | _, [] => []
  | fresh, c :: s =>
    if isBreak c then c :: withMargin margin true s
    else if fresh then margin ++ c :: withMargin margin false s
    else c :: withMargin margin false s

def margin (column : Nat) : List Char :=
  List.replicate column ' '

def singleQuoted (column : Nat) (s : List Char) : List Char :=
  let quoted := s.flatMap fun c => if c == '\'' then ['\'', '\''] else [c]
  '\'' :: withMargin (margin column) false (quoted ++ ['\''])

def blockMarks (s : List Char) : List Char :=
  let indent := if s.head?.any fun c => c == ' ' || isBreak c then ['2'] else []
  let chomp := match s.reverse with
    | [] => ['-']
    | last :: before =>
      if !isBreak last then ['-']
      else if before.isEmpty || before.head?.any isBreak then ['+']
      else []
  indent ++ chomp

def literal (column : Nat) (s : List Char) : List Char :=
  '|' :: (blockMarks s ++ '\n' :: withMargin (margin column) true s)

def string (column : Nat) (s : List Char) : List Char :=
  if s.contains '\n' then
    if allowsBlock s then literal column s else doubleQuoted s
  else if !isAmbiguous s && allowsPlain s then
    s
  else if allowsSingle s then
    singleQuoted column s
  else
    doubleQuoted s

def tagText (tag : String) : List Char :=
  let shown (c : Char) : List Char :=
    if (Token.isTagChar true c && c != '%') then [c]
    else (String.toUTF8 (String.singleton c)).toList.flatMap fun b => '%' :: capitalHex 2 b.toNat
  '!' :: tag.toList.flatMap shown

/--
Where a value stands: alone, behind the mark of an item, behind one of the two marks of an entry
that takes more than one line for its key, or behind a key and its colon.
-/
inductive Spot where
  | root
  | item
  | part
  | value
  deriving DecidableEq

/--
The column of a collection that stands at a spot of a collection at another column. A sequence that
begins on a line of its own in a mapping is not indented.
-/
def innerColumn (spot : Spot) (isSequence newLine : Bool) (column : Nat) : Nat :=
  if spot == .root then 0
  else if isSequence && newLine && spot != .item then column
  else column + 2

def behind (s : List Char) : List Char :=
  if s.head? == some '\n' then s else ' ' :: s

def onLines (column : Nat) : List (List Char) → List Char
  | [] => []
  | [s] => s
  | s :: more =>
    let ending := if s.getLast?.any isBreak then [] else ['\n']
    s ++ ending ++ margin column ++ onLines column more

def inline (column : Nat) : Value → List Char
  | .null => "null".toList
  | .boolean b => (if b then "true" else "false").toList
  | .number (.integer i) => (toString i).toList
  | .number (.float x) => x.yamlText
  | .string s => string (column + 2) s.toList
  | .sequence _ => "[]".toList
  | .mapping _ => "\x7b\x7d".toList
  | .tagged _ _ => []

def keyLength? : Value → Option Nat
  | .sequence (_ :: _) => none
  | .mapping (_ :: _) => none
  | .tagged tag v => (keyLength? v).map (1 + tag.utf8ByteSize + ·)
  | .string s => if s.toList.any isBreak then none else some s.utf8ByteSize
  | v => some (inline 0 v).length

def isShortKey (v : Value) : Bool :=
  (keyLength? v).any (· ≤ 128)

mutual

def node (spot : Spot) (behindTag : Bool) (column : Nat) : Value → List Char
  | .tagged tag v => tagText tag ++ behind (node spot true column v)
  | .sequence (x :: xs) =>
    let newLine := behindTag || spot == .value
    let own := innerColumn spot true newLine column
    (if newLine then '\n' :: margin own else []) ++ onLines own (items own (x :: xs))
  | .mapping (e :: es) =>
    let newLine := behindTag || spot == .value
    let own := innerColumn spot false newLine column
    (if newLine then '\n' :: margin own else []) ++ onLines own (entries own (e :: es))
  | v => inline column v

def items (column : Nat) : List Value → List (List Char)
  | [] => []
  | v :: vs => ('-' :: behind (node .item false column v)) :: items column vs

def entries (column : Nat) : List (Value × Value) → List (List Char)
  | [] => []
  | (k, v) :: es =>
    let text :=
      if isShortKey k then
        node .item false column k ++ ':' :: behind (node .value false column v)
      else
        onLines column ['?' :: behind (node .part false column k),
          ':' :: behind (node .part false column v)]
    text :: entries column es

end

def isSingle : Value → Bool
  | .mapping [_] => true
  | .tagged _ _ => true
  | _ => false

mutual

/--
Whether a value has a block text. It has none if a tag stands directly inside of a tag, or if the
key of a mapping of one entry, which itself has no tag, is a mapping of one entry or has a tag.
-/
def isWritable (behindTag : Bool) : Value → Bool
  | .tagged _ v => !behindTag && isWritable true v
  | .sequence xs => allWritable xs
  | .mapping es =>
    let blocked := match es with
      | [(k, _)] => !behindTag && isSingle k
      | _ => false
    !blocked && entriesWritable es
  | _ => true

def allWritable : List Value → Bool
  | [] => true
  | v :: vs => isWritable false v && allWritable vs

def entriesWritable : List (Value × Value) → Bool
  | [] => true
  | (k, v) :: es => isWritable false k && isWritable false v && entriesWritable es

end

end Block

def Value.blockText? (v : Value) : Option (List Char) :=
  if Block.isWritable false v then some (Block.node .root false 0 v) else none

end Yaml

end TemplateCheck
