import TemplateCheck.Decimal.Numeral
import TemplateCheck.Text
import TemplateCheck.Yaml.Cursor

/-!
This module contains the readers of scalars: plain, in quotes, and in blocks. Lines are folded:
between two words one end of a line becomes a space, and of several all but the first are kept.
-/

namespace TemplateCheck

namespace Yaml

namespace Scalar

structure Gap where
  spaces : List Char := []
  breaks : List Char := []

def Gap.folded (g : Gap) : List Char :=
  match g.breaks with
  | [] => g.spaces
  | ['\n'] => [' ']
  | '\n' :: more => more
  | breaks => breaks

def readGap? (admits : List Char → Bool) (c : Cursor) : Option (Gap × Cursor) :=
  let (spaces, c) := c.span isSpace
  (c.readBreaks? admits c.rest.length).map fun (breaks, c) => (⟨spaces, breaks⟩, c)

def isFlowIndicator (c : Char) : Bool :=
  c == ',' || c == '[' || c == ']' || c == '{' || c == '}'

def plainWord? (flow : Bool) : List Char → Option (List Char)
  | [] => some []
  | c :: s =>
    if isSpace c || isBreak c then
      some []
    else if flow && c == ':' && s.head?.any (fun d => isFlowIndicator d || d == '?') then
      none
    else if (c == ':' && startsApart s) || (flow && isFlowIndicator c) then
      some []
    else
      (plainWord? flow s).map (c :: ·)

structure Plain where
  text : List Char
  brokeLine : Bool
  cursor : Cursor

def readPlain? (flow : Bool) (margin : Nat) (c : Cursor) : Option Plain :=
  go c.rest.length {} c
where
  go : Nat → Gap → Cursor → Option Plain
    | 0, gap, c => some ⟨[], !gap.breaks.isEmpty, c⟩
    | n + 1, gap, c =>
      if c.atBoundary || c.rest.head? == some '#' then
        some ⟨[], !gap.breaks.isEmpty, c⟩
      else do
        let word ← plainWord? flow c.rest
        if word.isEmpty then
          return ⟨[], !gap.breaks.isEmpty, c⟩
        let text := gap.folded ++ word
        let c := c.skip word.length
        let admits (spaces : List Char) := !(spaces.take margin).contains '\t'
        let (gap, c) ← readGap? admits c
        if (gap.spaces.isEmpty && gap.breaks.isEmpty) || (!flow && c.column < margin) then
          return ⟨text, !gap.breaks.isEmpty, c⟩
        let more ← go n gap c
        return { more with text := text ++ more.text }

def escapes : List (Char × Char) :=
  [('0', '\x00'), ('a', '\x07'), ('b', '\x08'), ('t', '\t'), ('\t', '\t'), ('n', '\n'),
   ('v', '\x0b'), ('f', '\x0c'), ('r', '\r'), ('e', '\x1b'), (' ', ' '), ('"', '"'), ('/', '/'),
   ('\\', '\\'), ('N', '\x85'), ('_', '\xa0'), ('L', '\u2028'), ('P', '\u2029')]

def hexEscapes : List (Char × Nat) :=
  [('x', 2), ('u', 4), ('U', 8)]

def readEscape? (c : Cursor) : Option (Char × Cursor) :=
  match c.rest with
  | [] => none
  | letter :: s =>
    match hexEscapes.lookup letter with
    | some n => do
      if s.length < n then failure
      let x ← Text.charOfCode? (← Text.hexNumber? (s.take n))
      return (x, c.skip (n + 1))
    | none => (escapes.lookup letter).map fun x => (x, c.skip 1)

/--
Reads what follows an opening quote, up to and with the closing one. In single quotes a quote is
written twice; in double quotes a backslash begins an escape and takes away the end of a line.
-/
def readQuoted? (quote : Char) (c : Cursor) : Option (List Char × Cursor) :=
  go c.rest.length c
where
  go : Nat → Cursor → Option (List Char × Cursor)
    | 0, _ => none
    | n + 1, c =>
      match c.rest with
      | [] => none
      | x :: s =>
        if c.atBoundary then
          none
        else if x == quote then
          if quote == '\'' && s.head? == some '\'' then after n ['\''] (c.skip 2)
          else some ([], c.skip 1)
        else if quote == '"' && x == '\\' then
          match (c.skip 1).readBreak? with
          | some (_, c) => do
            let (gap, c) ← readGap? (fun _ => true) c
            after n gap.breaks c
          | none => do
            let (x, c) ← readEscape? (c.skip 1)
            after n [x] c
        else if isSpace x || isBreak x then do
          let (gap, c) ← readGap? (fun _ => true) c
          after n gap.folded c
        else
          after n [x] (c.skip 1)
  after (n : Nat) (piece : List Char) (c : Cursor) : Option (List Char × Cursor) :=
    (go n c).map fun (text, c) => (piece ++ text, c)

inductive Chomp where
  | clip
  | strip
  | keep
  deriving DecidableEq

structure BlockHead where
  literal : Bool
  chomp : Chomp := .clip
  indent? : Option Nat := none

/--
Reads the head of a block behind its first mark, up to the start of the next line. The two further
marks may stand in either order, and the digit zero is refused.
-/
def readBlockHead? (literal : Bool) (c : Cursor) : Option (BlockHead × Cursor) := do
  let (chomp?, c) := readChomp c
  let (indent?, c) ← readIndent c
  let (chomp, c) := match chomp? with
    | some chomp => (chomp, c)
    | none => let (chomp?, c) := readChomp c; (chomp?.getD .clip, c)
  let (_, c) := c.span isSpace
  let c := if c.rest.head? == some '#' then (c.span fun _ => true).2 else c
  match c.readBreak? with
  | some (_, c) => return (⟨literal, chomp, indent?⟩, c)
  | none => if c.rest.isEmpty then return (⟨literal, chomp, indent?⟩, c) else none
where
  readChomp (c : Cursor) : Option Chomp × Cursor :=
    match c.rest with
    | '+' :: _ => (some .keep, c.skip 1)
    | '-' :: _ => (some .strip, c.skip 1)
    | _ => (none, c)
  readIndent (c : Cursor) : Option (Option Nat × Cursor) :=
    match c.rest with
    | x :: _ =>
      if x == '0' then none
      else if x.isDigit then some (some (Numeral.digitValue x), c.skip 1)
      else some (none, c)
    | [] => some (none, c)

def readEmptyLines? (indent? : Option Nat) : Nat → Cursor → Option (List Char × Nat × Cursor)
  | 0, c => some ([], c.column, c)
  | n + 1, c =>
    let spaces := (c.rest.takeWhile (· == ' ')).length
    -- without a known indentation all spaces belong to it
    let within := match indent? with
      | some indent => min spaces (indent - c.column)
      | none => spaces
    let c := c.skip within
    if indent?.all (c.column < ·) && c.rest.head? == some '\t' then
      none
    else
      match c.readBreak? with
      | none => some ([], c.column, c)
      | some (b, next) =>
        (readEmptyLines? indent? n next).map fun (breaks, deepest, next) =>
          (b :: breaks, max c.column deepest, next)

structure BlockLines where
  text : List Char
  lastBreak : List Char
  emptyLines : List Char
  cursor : Cursor

def readBlockLines? (literal : Bool) (indent : Nat) :
    Nat → Bool → BlockLines → Option BlockLines
  | 0, _, lines => some lines
  | n + 1, lastIndented, lines =>
    let c := lines.cursor
    if c.column ≠ indent || c.rest.isEmpty then
      some lines
    else do
      let indented := c.rest.head?.any isSpace
      -- the end of a line is folded unless one of the lines next to it begins with a space
      let joint :=
        if !literal && lines.lastBreak == ['\n'] && !lastIndented && !indented then
          if lines.emptyLines.isEmpty then [' '] else lines.emptyLines
        else
          lines.lastBreak ++ lines.emptyLines
      let (line, c) := c.span fun _ => true
      let (lastBreak, c) := match c.readBreak? with
        | some (b, c) => ([b], c)
        | none => ([], c)
      let (emptyLines, _, c) ← readEmptyLines? (some indent) (c.rest.length + 1) c
      readBlockLines? literal indent n indented
        ⟨lines.text ++ joint ++ line, lastBreak, emptyLines, c⟩

def readBlock? (literal : Bool) (margin : Nat) (c : Cursor) : Option (List Char × Cursor) := do
  let (head, c) ← readBlockHead? literal c
  -- the head counts from the margin of the surrounding block
  let given? := head.indent?.map (margin - 1 + ·)
  let (emptyLines, deepest, c) ← readEmptyLines? given? (c.rest.length + 1) c
  let indent := given?.getD (max deepest (max margin 1))
  let lines ← readBlockLines? literal indent (c.rest.length + 1) false ⟨[], [], emptyLines, c⟩
  let ending := match head.chomp with
    | .strip => []
    | .clip => lines.lastBreak
    | .keep => lines.lastBreak ++ lines.emptyLines
  return (lines.text ++ ending, lines.cursor)

end Scalar

end Yaml

end TemplateCheck
