import TemplateCheck.Yaml.Token

/-!
This module contains the division of a YAML text into tokens. Indentation opens and closes blocks. A
node turns out to be a key only when the colon behind it is met, so the place of a node that may
still be one is remembered, and its tokens are put there afterwards. Tokens, open blocks and open
brackets are kept with the last one first.
-/

namespace TemplateCheck

namespace Yaml

/--
A node that may turn out to be a key: the number of tokens before it, where it begins, and whether
nothing but a key may stand there.
-/
structure PendingKey where
  token : Nat
  index : Nat
  line : Nat
  column : Nat
  required : Bool

structure Scan where
  cursor : Cursor
  tokens : List Token := []
  count : Nat := 0
  /--
  For each open block, the innermost first, the column at which a further line inside of its
  entries has to begin at least.
  -/
  margins : List Nat := []
  keyAllowed : Bool := true
  pending? : Option PendingKey := none
  outerPending : List (Option PendingKey) := []

namespace Scan

def inFlow (s : Scan) : Bool :=
  !s.outerPending.isEmpty

def margin (s : Scan) : Nat :=
  s.margins.headD 0

def add (t : Token) (s : Scan) : Scan :=
  { s with tokens := t :: s.tokens, count := s.count + 1 }

def addTo (t : Token) (c : Cursor) (s : Scan) : Scan :=
  add t { s with cursor := c }

def insert (n : Nat) (t : Token) (s : Scan) : Scan :=
  let later := s.count - n
  { s with
    tokens := s.tokens.take later ++ t :: s.tokens.drop later
    count := s.count + 1 }

def openBlock (column n : Nat) (t : Token) (s : Scan) : Scan :=
  if !s.inFlow && s.margin ≤ column then
    insert n t { s with margins := (column + 1) :: s.margins }
  else
    s

def closeBlocks (limit : Nat) (s : Scan) : Scan :=
  if s.inFlow then
    s
  else
    let closed := s.margins.takeWhile (limit < ·)
    closed.foldl (fun s _ => s.add .blockEnd) { s with margins := s.margins.drop closed.length }

def dropPending? (s : Scan) : Option Scan :=
  if s.pending?.any (·.required) then none else some { s with pending? := none }

def savePending? (s : Scan) : Option Scan :=
  if s.keyAllowed then
    (dropPending? s).map fun s =>
      let c := s.cursor
      -- at the column of an open block nothing but a key can stand
      let required := !s.inFlow && s.margin == c.column + 1
      { s with pending? := some ⟨s.count, c.index, c.line, c.column, required⟩ }
  else
    some s

/--
A key has to stand on one line and within 1024 characters.
-/
def keep? (c : Cursor) : Option PendingKey → Option (Option PendingKey)
  | none => some none
  | some k =>
    if k.line < c.line || k.index + 1024 < c.index then
      if k.required then none else some none
    else
      some (some k)

def dropStale? (s : Scan) : Option Scan := do
  let pending? ← keep? s.cursor s.pending?
  let outerPending ← s.outerPending.mapM (keep? s.cursor)
  return { s with pending? := pending?, outerPending := outerPending }

def skipFiller (s : Scan) : Scan :=
  go s.cursor.rest.length s
where
  go : Nat → Scan → Scan
    | 0, s => s
    | n + 1, s =>
      let c := s.cursor
      -- a byte order mark at the start of a line takes one column
      let c := if c.column == 0 && c.rest.head? == some '\uFEFF' then c.skip 1 else c
      -- a tab counts as a space only where no key may begin or brackets are open
      let (_, c) := c.span fun x => x == ' ' || (x == '\t' && (s.inFlow || !s.keyAllowed))
      let c := if c.rest.head? == some '#' then (c.span fun _ => true).2 else c
      match c.readBreak? with
      | some (_, c) => go n { s with cursor := c, keyAllowed := s.keyAllowed || !s.inFlow }
      | none => { s with cursor := c }

def finish? (s : Scan) : Option Scan := do
  let s ← (s.closeBlocks 0).dropPending?
  return s.add .textEnd

def directive? (s : Scan) : Option Scan := do
  let s ← (s.closeBlocks 0).dropPending?
  let (t, c) ← Token.readDirective? s.cursor
  return addTo t c { s with keyAllowed := false }

def boundary? (t : Token) (s : Scan) : Option Scan := do
  let s ← (s.closeBlocks 0).dropPending?
  return addTo t (s.cursor.skip 3) { s with keyAllowed := false }

def openFlow? (t : Token) (s : Scan) : Option Scan := do
  let s ← s.savePending?
  return addTo t (s.cursor.skip 1)
    { s with pending? := none, outerPending := s.pending? :: s.outerPending, keyAllowed := true }

def closeFlow? (t : Token) (s : Scan) : Option Scan := do
  let s ← s.dropPending?
  let s := match s.outerPending with
    | [] => s
    | p :: ps => { s with pending? := p, outerPending := ps }
  return addTo t (s.cursor.skip 1) { s with keyAllowed := false }

def separator? (s : Scan) : Option Scan := do
  let s ← s.dropPending?
  return addTo .separator (s.cursor.skip 1) { s with keyAllowed := true }

def entry? (s : Scan) : Option Scan := do
  -- inside of brackets it has no place, which shows only when the tokens are read
  if !s.inFlow && !s.keyAllowed then failure
  let s ← (s.openBlock s.cursor.column s.count .blockSequence).dropPending?
  return addTo .entry (s.cursor.skip 1) { s with keyAllowed := true }

def key? (s : Scan) : Option Scan := do
  if !s.inFlow && !s.keyAllowed then failure
  let s ← (s.openBlock s.cursor.column s.count .blockMapping).dropPending?
  return addTo .key (s.cursor.skip 1) { s with keyAllowed := !s.inFlow }

def value? (s : Scan) : Option Scan := do
  let c := s.cursor.skip 1
  match s.pending? with
  -- the node that may be a key becomes one, and a block is opened where it begins
  | some k =>
    let s := openBlock k.column k.token .blockMapping (s.insert k.token .key)
    return addTo .value c { s with pending? := none, keyAllowed := false }
  | none =>
    if !s.inFlow && !s.keyAllowed then failure
    let s := s.openBlock s.cursor.column s.count .blockMapping
    return addTo .value c { s with keyAllowed := !s.inFlow }

def node? (read : Cursor → Option (Token × Cursor)) (s : Scan) : Option Scan := do
  let s ← s.savePending?
  let (t, c) ← read s.cursor
  return addTo t c { s with keyAllowed := false }

def block? (literal : Bool) (s : Scan) : Option Scan := do
  let s ← s.dropPending?
  let (text, c) ← Scalar.readBlock? literal s.margin (s.cursor.skip 1)
  return addTo (.scalar false text) c { s with keyAllowed := true }

def plain? (s : Scan) : Option Scan := do
  let s ← s.savePending?
  let p ← Scalar.readPlain? s.inFlow s.margin s.cursor
  return addTo (.scalar true p.text) p.cursor { s with keyAllowed := p.brokeLine }

def indicators : List Char :=
  "-?:,[]\x7b\x7d#&*!|>'\"%@`".toList

def token? (x : Char) (rest : List Char) (s : Scan) : Option Scan :=
  let apart := startsApart rest
  match x with
  | '[' => s.openFlow? .flowSequence
  | '{' => s.openFlow? .flowMapping
  | ']' => s.closeFlow? .flowSequenceEnd
  | '}' => s.closeFlow? .flowMappingEnd
  | ',' => s.separator?
  | '*' => s.node? fun c => named .alias (Token.readName? (c.skip 1))
  | '&' => s.node? fun c => named .anchor (Token.readName? (c.skip 1))
  | '!' => s.node? (Token.readTag? s.inFlow)
  | '\'' => s.node? fun c => named (.scalar false) (Scalar.readQuoted? '\'' (c.skip 1))
  | '"' => s.node? fun c => named (.scalar false) (Scalar.readQuoted? '"' (c.skip 1))
  | '-' =>
    if apart then s.entry?
    else s.plain?
  | '?' => if apart || s.inFlow then s.key? else s.plain?
  | ':' => if apart || s.inFlow then s.value? else s.plain?
  | '|' => if s.inFlow then none else s.block? true
  | '>' => if s.inFlow then none else s.block? false
  | x => if indicators.contains x || isSpace x then none else s.plain?
where
  named (f : List Char → Token) (r : Option (List Char × Cursor)) : Option (Token × Cursor) :=
    r.map fun (text, c) => (f text, c)

def next? (s : Scan) : Option Scan := do
  let s ← s.skipFiller.dropStale?
  let s := s.closeBlocks (s.cursor.column + 1)
  let c := s.cursor
  match c.rest with
  | [] => s.finish?
  | x :: rest =>
    if c.column == 0 && x == '%' then s.directive?
    else if c.atMarker ['-', '-', '-'] then s.boundary? .documentStart
    else if c.atMarker ['.', '.', '.'] then s.boundary? .documentEnd
    else s.token? x rest

def run : Nat → Scan → Scan
  | 0, s => s
  | n + 1, s =>
    match s.next? with
    | none => s
    | some s => if s.tokens.head? == some .textEnd then s else run n s

end Scan

def Token.ofText (text : List Char) : List Token :=
  let s : Scan := { cursor := { rest := text } }
  (s.run (text.length + 1)).tokens.reverse

end Yaml

end TemplateCheck
