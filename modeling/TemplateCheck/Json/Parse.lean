import TemplateCheck.Json.Numeral
import TemplateCheck.Text

/-!
This module contains the values that JSON texts denote and the reader of these texts. A reader of a
part takes the text from that part on and gives its meaning and the text behind it. What is repeated
is counted down from the length of the text.
-/

namespace TemplateCheck

namespace Json

/--
A JSON value. An integer lies within 64 bits, with or without a sign. The keys of an object are
distinct, in the order in which they first appear.
-/
inductive Value where
  | null
  | boolean (value : Bool)
  | number (value : Number)
  | string (value : String)
  | array (items : List Value)
  | object (entries : List (String × Value))
  deriving Repr, Inhabited

def isSpace (c : Char) : Bool :=
  c == ' ' || c == '\n' || c == '\t' || c == '\r'

def skipSpace (s : List Char) : List Char :=
  s.dropWhile isSpace

def readUnit? : List Char → Option (Nat × List Char)
  | a :: b :: c :: d :: s => (Text.hexNumber? [a, b, c, d]).map fun n => (n, s)
  | _ => none

def readUnicode? (s : List Char) : Option (Char × List Char) := do
  let (high, s) ← readUnit? s
  -- a character beyond the first 65536 is written in two halves, of which none stands alone
  if 0xD800 ≤ high && high < 0xDC00 then
    match s with
    | '\\' :: 'u' :: s =>
      let (low, s) ← readUnit? s
      if low < 0xDC00 || 0xE000 ≤ low then failure
      return (← Text.charOfCode? (0x10000 + (high - 0xD800) * 0x400 + (low - 0xDC00)), s)
    | _ => failure
  else
    return (← Text.charOfCode? high, s)

def escapes : List (Char × Char) :=
  [('"', '"'), ('\\', '\\'), ('/', '/'), ('b', '\x08'), ('f', '\x0c'), ('n', '\n'), ('r', '\r'),
   ('t', '\t')]

def readString? : Nat → List Char → Option (List Char × List Char)
  | 0, _ => none
  | n + 1, s =>
    match s with
    | [] => none
    | '"' :: s => some ([], s)
    | '\\' :: 'u' :: s => do
      let (c, s) ← readUnicode? s
      let (text, s) ← readString? n s
      return (c :: text, s)
    | '\\' :: e :: s => do
      let c ← escapes.lookup e
      let (text, s) ← readString? n s
      return (c :: text, s)
    -- control characters have to be written as escapes
    | c :: s =>
      if c < ' ' || c == '\\' then none
      else (readString? n s).map fun (text, s) => (c :: text, s)

abbrev Reader (α : Type) := List Char → Option (α × List Char)

def readParts? {α : Type} (close : Char) (read : Reader α) : Nat → Reader (List α)
  | 0, _ => none
  | n + 1, s => do
    let (x, s) ← read s
    match skipSpace s with
    | ',' :: s =>
      let (xs, s) ← readParts? close read n s
      return (x :: xs, s)
    | c :: s => if c = close then return ([x], s) else failure
    | [] => failure

def readAll? {α : Type} (close : Char) (read : Reader α) : Reader (List α) := fun s =>
  match skipSpace s with
  | [] => none
  | c :: rest => if c = close then some ([], rest) else readParts? close read (c :: rest).length s

def readMember? (read : Reader Value) : Reader (String × Value) := fun s =>
  match skipSpace s with
  | '"' :: s => do
    let (key, s) ← readString? (s.length + 1) s
    match skipSpace s with
    | ':' :: s =>
      let (v, s) ← read s
      return ((String.ofList key, v), s)
    | _ => failure
  | _ => none

def readWord? (word : String) (v : Value) : Reader Value := fun s =>
  (word.toList.isPrefixOf? s).map (v, ·)

def readScalar? : Reader Value := fun s =>
  match s with
  | '"' :: s =>
    (readString? (s.length + 1) s).map fun (text, s) => (.string (String.ofList text), s)
  | 'n' :: _ => readWord? "null" .null s
  | 't' :: _ => readWord? "true" (.boolean true) s
  | 'f' :: _ => readWord? "false" (.boolean false) s
  | _ => (readNumber? s).map fun (n, s) => (.number n, s)

def readValue? : Nat → Reader Value
  | depth, s =>
    match depth, skipSpace s with
    | 0, '[' :: _ => none
    | 0, '\x7b' :: _ => none
    | depth + 1, '[' :: s =>
      (readAll? ']' (readValue? depth) s).map fun (xs, s) => (.array xs, s)
    -- a repeated key keeps its first place and takes its last value
    | depth + 1, '\x7b' :: s =>
      (readAll? '\x7d' (readMember? (readValue? depth)) s).map fun (es, s) =>
        (.object (Entries.ofPairs es), s)
    | _, s => readScalar? s

def depthLimit : Nat :=
  127

def parse? (text : String) : Option Value :=
  match readValue? depthLimit text.toList with
  | some (v, rest) => if (skipSpace rest).isEmpty then some v else none
  | none => none

end Json

end TemplateCheck
