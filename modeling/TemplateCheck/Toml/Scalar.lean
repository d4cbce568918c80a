import TemplateCheck.Decimal.Numeral
import TemplateCheck.Text
import TemplateCheck.Toml.Table

/-!
This module contains the readers of TOML strings and of the words for truth values, numbers, dates
and times. What is repeated is counted down from the length of the text.
-/

namespace TemplateCheck

namespace Toml

abbrev Reader (α : Type) := List Char → Option (α × List Char)

def isSpace (c : Char) : Bool :=
  c == ' ' || c == '\t'

def skipSpace (s : List Char) : List Char :=
  s.dropWhile isSpace

def isShown (c : Char) : Bool :=
  c == '\t' || (' ' ≤ c && c != '\x7f')

def newLine? : List Char → Option (List Char)
  | '\n' :: s => some s
  | '\r' :: '\n' :: s => some s
  | _ => none

def skipLines : Nat → List Char → List Char
  | 0, s => s
  | n + 1, s =>
    match newLine? (skipSpace s) with
    | some s => skipLines n s
    | none => skipSpace s

def escapes : List (Char × Char) :=
  [('b', '\x08'), ('t', '\t'), ('n', '\n'), ('f', '\x0c'), ('r', '\r'), ('"', '"'), ('\\', '\\')]

def readEscape? : Reader Char
  | 'u' :: s => readCode? 4 s
  | 'U' :: s => readCode? 8 s
  | c :: s => (escapes.lookup c).map (·, s)
  | [] => none
where
  readCode? (count : Nat) : Reader Char := fun s => do
    if s.length < count then failure
    return (← Text.charOfCode? (← Text.hexNumber? (s.take count)), s.drop count)

def readLine? (quote : Char) : Nat → Reader (List Char)
  | 0, _ => none
  | n + 1, s =>
    match s with
    | [] => none
    | c :: s =>
      if c == quote then
        some ([], s)
      else do
        let (c, s) ← if c == '\\' && quote == '"' then readEscape? s
          else if isShown c then some (c, s)
          else none
        let (text, s) ← readLine? quote n s
        return (c :: text, s)

/--
Reads a string of several lines behind its three quotes. One or two quotes are part of the text,
also directly in front of the closing three. In double quotes a backslash at the end of a line takes
away all space up to the next text.
-/
def readLines? (quote : Char) : Nat → Reader (List Char)
  | 0, _ => none
  | n + 1, s =>
    match s with
    | [] => none
    | c :: rest =>
      if c == quote then
        let run := (s.takeWhile (· == quote)).length
        if run < 3 then after n (List.replicate run quote) (s.drop run)
        else some (List.replicate (min run 5 - 3) quote, s.drop (min run 5))
      else if c == '\\' && quote == '"' then
        match newLine? (skipSpace rest) with
        | some rest => after n [] (skipLines (rest.length + 1) rest)
        | none => do
          let (c, rest) ← readEscape? rest
          after n [c] rest
      else
        match newLine? s with
        | some rest => after n ['\n'] rest
        | none => if isShown c then after n [c] rest else none
where
  after (n : Nat) (piece : List Char) : Reader (List Char) := fun s =>
    (readLines? quote n s).map fun (text, s) => (piece ++ text, s)

def readString? : Reader (List Char)
  | a :: b :: c :: s =>
    if a == b && b == c then
      let s := (newLine? s).getD s
      readLines? a (s.length + 1) s
    else
      readLine? a ((b :: c :: s).length + 1) (b :: c :: s)
  | a :: s => readLine? a (s.length + 1) s
  | [] => none

def digits? (isDigit : Char → Bool) : List Char → Option (List Char)
  | [] => none
  | [c] => if isDigit c then some [c] else none
  | c :: '_' :: s => if isDigit c then (digits? isDigit s).map (c :: ·) else none
  | c :: s => if isDigit c then (digits? isDigit s).map (c :: ·) else none

def wholeDigits? (s : List Char) : Option (List Char) :=
  match s with
  | '0' :: _ :: _ => none
  | _ => digits? Char.isDigit s

def inBase? (base : Nat) (s : List Char) : Option Nat := do
  let isDigit (c : Char) := (Text.hexValue? c).any (· < base)
  (← digits? isDigit s).foldlM (fun n c => (Text.hexValue? c).map (base * n + ·)) 0

def integer? (s : List Char) : Option Int := do
  let i : Int ← match s with
    | '0' :: 'x' :: s => inBase? 16 s
    | '0' :: 'o' :: s => inBase? 8 s
    | '0' :: 'b' :: s => inBase? 2 s
    | s => do
      let (negative, s) := Numeral.takeSign s
      let n : Int := Numeral.natOfDigits (← wholeDigits? s)
      pure (if negative then -n else n)
  if fitsSigned i then some i else none

def float? (s : List Char) : Option Binary64 := do
  let (negative, word) := Numeral.takeSign s
  if word = "inf".toList then return .infinite negative
  if word = "nan".toList then return .nan
  let mantissa := word.takeWhile fun c => c != 'e' && c != 'E'
  let exponent := word.drop mantissa.length
  let whole ← wholeDigits? (mantissa.takeWhile (· != '.'))
  let point := mantissa.dropWhile (· != '.')
  if point.isEmpty && exponent.isEmpty then failure
  let fraction ← if point.isEmpty then some [] else digits? Char.isDigit point.tail
  let power : Int ← match exponent with
    | [] => some 0
    | _ :: power => do
      let (negative, ds) := Numeral.takeSign power
      let n : Int := Numeral.natOfDigits (← digits? Char.isDigit ds)
      pure (if negative then -n else n)
  let x := Binary64.ofDecimal negative (Numeral.natOfDigits (whole ++ fraction))
    (power - fraction.length)
  if x = .infinite false then none else some x

def isField (count low high : Nat) (s : List Char) : Bool :=
  s.length == count && s.all Char.isDigit &&
    low ≤ Numeral.natOfDigits s && Numeral.natOfDigits s ≤ high

def daysIn (year month : Nat) : Nat :=
  if month = 2 then
    if year % 4 = 0 ∧ (year % 100 ≠ 0 ∨ year % 400 = 0) then 29 else 28
  else if month ∈ [4, 6, 9, 11] then 30
  else 31

def isDate (s : List Char) : Bool :=
  let year := s.take 4
  let month := (s.drop 5).take 2
  let day := s.drop 8
  s[4]? == some '-' && s[7]? == some '-' && isField 4 0 9999 year && isField 2 1 12 month &&
    isField 2 1 (daysIn (Numeral.natOfDigits year) (Numeral.natOfDigits month)) day

def isTime (s : List Char) : Bool :=
  let fraction := s.drop 8
  s[2]? == some ':' && s[5]? == some ':' && isField 2 0 23 (s.take 2) &&
    isField 2 0 59 ((s.drop 3).take 2) && isField 2 0 60 ((s.drop 6).take 2) &&
    (fraction.isEmpty ||
      (fraction.head? == some '.' && !fraction.tail.isEmpty && fraction.tail.all Char.isDigit))

def isTimeWithOffset (s : List Char) : Bool :=
  let time := s.takeWhile fun c => c.isDigit || c == ':' || c == '.'
  let isOffset := match s.drop time.length with
    | [] => true
    | ['Z'] => true
    | ['z'] => true
    | c :: offset =>
      (c == '+' || c == '-') && offset[2]? == some ':' && isField 2 0 23 (offset.take 2) &&
        isField 2 0 59 (offset.drop 3)
  isTime time && isOffset

def isMoment (s : List Char) : Bool :=
  isTime s || isDate s ||
    (isDate (s.take 10) && (s[10]? == some 'T' || s[10]? == some 't') &&
      isTimeWithOffset (s.drop 11))

def isWordChar (c : Char) : Bool :=
  c.isAlphanum || c == '_' || c == '+' || c == '-' || c == '.' || c == ':'

def ofWord? (s : List Char) : Option Value :=
  if s = "true".toList then some (.boolean true)
  else if s = "false".toList then some (.boolean false)
  else if isMoment s then some (.moment s)
  else
    match integer? s with
    | some i => some (.integer i)
    | none => (float? s).map .float

def readWord? : Reader Value := fun s =>
  let word := s.takeWhile isWordChar
  let rest := s.drop word.length
  let time := rest.tail.takeWhile isWordChar
  if isDate word && rest.head? == some ' ' && !time.isEmpty then
    if isTimeWithOffset time then
      some (.moment (word ++ ' ' :: time), rest.drop (time.length + 1))
    else
      none
  else
    (ofWord? word).map (·, rest)

end Toml

end TemplateCheck
