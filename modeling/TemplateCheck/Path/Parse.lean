import TemplateCheck.Outcome
import TemplateCheck.Path
import TemplateCheck.Path.Fragment
import TemplateCheck.Text

/-!
This module contains the reader of path expressions. A reader of a part takes the text from that
part on and gives its meaning and the text behind it.
-/

namespace TemplateCheck

namespace Path

/--
Why reading stops. Where a position is reported, the text from there on is kept.
-/
inductive Fault where
  | noRoot
  | unexpected (rest : List Char) (expected : String)
  | ended (expected : String)
  | noKey (rest : List Char)
  | noNumber
  | badIndex (text : List Char)
  | badNumber (text : List Char)
  | badSubject (text : List Char)
  deriving DecidableEq, Repr

def Fault.toError (size : Nat) : Fault → PathError
  | .noRoot => .invalidSyntax "Path must start with '/'"
  | .unexpected rest expected =>
    .unexpectedToken (size - Text.utf8Length rest) (String.ofList (rest.take 1)) expected
  | .ended expected => .unexpectedEnd expected
  | .noKey rest =>
    let position := size - Text.utf8Length rest
    .invalidSyntax s!"Expected key at position {position}"
  | .noNumber => .invalidSyntax "Expected number"
  | .badIndex text => .invalidSyntax ("Invalid index: " ++ String.ofList text)
  | .badNumber text => .invalidSyntax ("Invalid number: " ++ String.ofList text)
  | .badSubject text =>
    .invalidSyntax ("Unknown filter subject '" ++ String.ofList text ++ "'")

def skipBlank (s : List Char) : List Char :=
  s.dropWhile Text.isBlank

def readChar (c : Char) : List Char → Except Fault (List Char)
  | [] => .error (.ended s!"'{c}'")
  | d :: s => if d = c then .ok s else .error (.unexpected (d :: s) s!"'{c}'")

def readWord (word : String) (s : List Char) : Except Fault (List Char) :=
  match word.toList.isPrefixOf? s with
  | some rest => .ok rest
  | none => if s.isEmpty then .error (.ended s!"'{word}'") else .error (.unexpected s s!"'{word}'")

def readName (s : List Char) : Except Fault (List Char × List Char) :=
  let name := s.takeWhile isKeyChar
  if name.isEmpty then .error (.noKey s) else .ok (name, s.dropWhile isKeyChar)

def readString : List Char → Except Fault (List Char × List Char)
  | [] => .error (.ended "quoted string")
  | q :: s =>
    if q = '\'' ∨ q = '"' then
      match Text.readQuoted q s with
      | .ok r => .ok r
      | .error .missingQuote => .error (.ended s!"closing quote {q}")
      | .error .missingEscaped => .error (.ended "escaped character")
    else
      .error (.unexpected (q :: s) "quoted string")

def readNumeral (s : List Char) : Except Fault (List Char × List Char) :=
  let text := s.takeWhile isNumeralChar
  if text.isEmpty then .error .noNumber else .ok (text, s.dropWhile isNumeralChar)

def position? (s : List Char) : Option Nat :=
  let digits := if s.head? = some '+' then s.tail else s
  if !digits.isEmpty && digits.all Char.isDigit && fitsWord (Numeral.natOfDigits digits) then
    some (Numeral.natOfDigits digits)
  else
    none

def readSelector (s : List Char) : Except Fault (Selector × List Char) :=
  match s with
  | [] => .error (.ended "path step")
  | '*' :: s => .ok (.anyChild, s)
  | '.' :: s => .ok (.current, s)
  | '"' :: _ => (readString s).map fun (name, rest) => (.key (String.ofList name), rest)
  | _ => (readName s).map fun (name, rest) => (.key (String.ofList name), rest)

def readIndexTest (s : List Char) : Except Fault (Filter × List Char) := do
  let s ← readWord "==" s
  let (text, s) ← readNumeral (skipBlank s)
  match position? text with
  | some i => .ok (.index i, s)
  | none => .error (.badIndex text)

def readValueTest (s : List Char) : Except Fault (Filter × List Char) := do
  if s.head? = some '=' then
    let s ← readWord "==" s
    let (text, s) ← readNumeral (skipBlank s)
    match Binary64.read? text with
    | some x => .ok (.numberEq x, s)
    | none => .error (.badNumber text)
  else
    let s ← readWord "eq" s
    let (text, s) ← readString (skipBlank s)
    .ok (.textEq (String.ofList text), s)

def readTest (subject : List Char) (s : List Char) : Except Fault (Filter × List Char) :=
  if subject = "idx".toList then readIndexTest s
  else if subject = "value".toList then readValueTest s
  else .error (.badSubject subject)

def readFilter (s : List Char) : Except Fault (Filter × List Char) := do
  let (subject, s) ← readName (skipBlank s)
  let (filter, s) ← readTest subject (skipBlank s)
  let s ← readChar ']' (skipBlank s)
  .ok (filter, s)

def readFilter? : List Char → Except Fault (Option Filter × List Char)
  | '[' :: s => (readFilter s).map fun (filter, rest) => (some filter, rest)
  | s => .ok (none, s)

def readAxis (s : List Char) : Except Fault (Axis × List Char) := do
  let s ← readChar '/' s
  match s with
  | '/' :: s => .ok (.descendantOrSelf, s)
  | s => .ok (.child, s)

def readStep (s : List Char) : Except Fault (Step × List Char) := do
  let (axis, s) ← readAxis s
  let (selector, s) ← readSelector s
  let (filter?, s) ← readFilter? s
  .ok (⟨axis, selector, filter?⟩, s)

theorem length_skipBlank_le (s : List Char) : (skipBlank s).length ≤ s.length :=
  (List.dropWhile_suffix _).length_le

theorem readChar_length {c : Char} {s rest : List Char} (h : readChar c s = .ok rest) :
    rest.length < s.length := by
  unfold readChar at h
  split at h
  . cases h
  . split at h
    . cases h; simp
    . cases h

theorem length_isPrefixOf? {p s rest : List Char} (h : p.isPrefixOf? s = some rest) :
    rest.length ≤ s.length := by
  induction p generalizing s with
  | nil => cases h; exact Nat.le_refl _
  | cons c p ih =>
    cases s with
    | nil => exact nomatch h
    | cons d s =>
      change (if c == d then p.isPrefixOf? s else none) = some rest at h
      split at h
      . have := ih h
        simp only [List.length_cons]
        omega
      . cases h

theorem readWord_length {word : String} {s rest : List Char} (h : readWord word s = .ok rest) :
    rest.length ≤ s.length := by
  unfold readWord at h
  split at h
  . cases h
    exact length_isPrefixOf? (by assumption)
  . split at h <;> cases h

theorem readName_length {s name rest : List Char} (h : readName s = .ok (name, rest)) :
    rest.length ≤ s.length := by
  simp only [readName] at h
  split at h
  . cases h
  . cases h
    exact (List.dropWhile_suffix _).length_le

theorem readNumeral_length {s text rest : List Char} (h : readNumeral s = .ok (text, rest)) :
    rest.length ≤ s.length := by
  simp only [readNumeral] at h
  split at h
  . cases h
  . cases h
    exact (List.dropWhile_suffix _).length_le

theorem readString_length {s text rest : List Char} (h : readString s = .ok (text, rest)) :
    rest.length ≤ s.length := by
  unfold readString at h
  split at h
  . cases h
  . split at h
    . split at h
      . cases h
        have := Text.readQuoted_length (by assumption)
        simp only [List.length_cons]
        omega
      . cases h
      . cases h
    . cases h

theorem readSelector_length {s rest : List Char} {selector : Selector}
    (h : readSelector s = .ok (selector, rest)) : rest.length ≤ s.length := by
  unfold readSelector at h
  split at h
  . cases h
  . cases h; simp
  . cases h; simp
  . obtain ⟨⟨name, r⟩, hr, he⟩ := Outcome.map_eq_ok_iff.mp h
    cases he
    exact readString_length hr
  . obtain ⟨⟨name, r⟩, hr, he⟩ := Outcome.map_eq_ok_iff.mp h
    cases he
    exact readName_length hr

theorem readIndexTest_length {s rest : List Char} {filter : Filter}
    (h : readIndexTest s = .ok (filter, rest)) : rest.length ≤ s.length := by
  obtain ⟨s₁, h₁, h⟩ := Outcome.bind_eq_ok_iff.mp h
  obtain ⟨⟨text, s₂⟩, h₂, h⟩ := Outcome.bind_eq_ok_iff.mp h
  have l₁ := readWord_length h₁
  have l₂ := readNumeral_length h₂
  have l := length_skipBlank_le s₁
  dsimp only at h
  split at h
  . cases h; omega
  . cases h

theorem readValueTest_length {s rest : List Char} {filter : Filter}
    (h : readValueTest s = .ok (filter, rest)) : rest.length ≤ s.length := by
  unfold readValueTest at h
  split at h
  . obtain ⟨s₁, h₁, h⟩ := Outcome.bind_eq_ok_iff.mp h
    obtain ⟨⟨text, s₂⟩, h₂, h⟩ := Outcome.bind_eq_ok_iff.mp h
    have l₁ := readWord_length h₁
    have l₂ := readNumeral_length h₂
    have l := length_skipBlank_le s₁
    dsimp only at h
    split at h
    . cases h; omega
    . cases h
  . obtain ⟨s₁, h₁, h⟩ := Outcome.bind_eq_ok_iff.mp h
    obtain ⟨⟨text, s₂⟩, h₂, h⟩ := Outcome.bind_eq_ok_iff.mp h
    have l₁ := readWord_length h₁
    have l₂ := readString_length h₂
    have l := length_skipBlank_le s₁
    cases h
    omega

theorem readTest_length {subject s rest : List Char} {filter : Filter}
    (h : readTest subject s = .ok (filter, rest)) : rest.length ≤ s.length := by
  unfold readTest at h
  split at h
  . exact readIndexTest_length h
  . split at h
    . exact readValueTest_length h
    . cases h

theorem readFilter_length {s rest : List Char} {filter : Filter}
    (h : readFilter s = .ok (filter, rest)) : rest.length ≤ s.length := by
  obtain ⟨⟨subject, s₁⟩, h₁, h⟩ := Outcome.bind_eq_ok_iff.mp h
  obtain ⟨⟨f, s₂⟩, h₂, h⟩ := Outcome.bind_eq_ok_iff.mp h
  obtain ⟨s₃, h₃, h⟩ := Outcome.bind_eq_ok_iff.mp h
  cases h
  have l₁ := readName_length h₁
  have l₃ := readChar_length h₃
  have k₁ := length_skipBlank_le s
  have k₂ := length_skipBlank_le s₁
  have k₃ := length_skipBlank_le s₂
  have l₂ := readTest_length h₂
  omega

theorem readFilter?_length {s rest : List Char} {filter? : Option Filter}
    (h : readFilter? s = .ok (filter?, rest)) : rest.length ≤ s.length := by
  unfold readFilter? at h
  split at h
  . obtain ⟨⟨f, r⟩, hr, he⟩ := Outcome.map_eq_ok_iff.mp h
    cases he
    have := readFilter_length hr
    simp only [List.length_cons]
    omega
  . cases h
    exact Nat.le_refl _

theorem readAxis_length {s rest : List Char} {axis : Axis} (h : readAxis s = .ok (axis, rest)) :
    rest.length < s.length := by
  obtain ⟨s₁, h₁, h⟩ := Outcome.bind_eq_ok_iff.mp h
  have l₁ := readChar_length h₁
  split at h
  . cases h
    simp only [List.length_cons] at l₁
    omega
  . cases h
    exact l₁

theorem readStep_length {s rest : List Char} {step : Step} (h : readStep s = .ok (step, rest)) :
    rest.length < s.length := by
  obtain ⟨⟨axis, s₁⟩, h₁, h⟩ := Outcome.bind_eq_ok_iff.mp h
  obtain ⟨⟨selector, s₂⟩, h₂, h⟩ := Outcome.bind_eq_ok_iff.mp h
  obtain ⟨⟨filter?, s₃⟩, h₃, h⟩ := Outcome.bind_eq_ok_iff.mp h
  cases h
  have l₁ := readAxis_length h₁
  have l₂ := readSelector_length h₂
  have l₃ := readFilter?_length h₃
  omega

def readSteps (s : List Char) : Except Fault Path :=
  match h : readStep s with
  | .error fault => .error fault
  | .ok (step, rest) =>
    have := readStep_length h
    match rest with
    | [] => .ok [step]
    | c :: s =>
      if c = '/' then
        (readSteps (c :: s)).map (step :: ·)
      else
        .error (.unexpected (c :: s) "'/' or end of path")
termination_by s.length

def readAll (s : List Char) : Except Fault Path :=
  let s := skipBlank s
  if s.head? = some '/' then
    if s = ['/'] then .ok [] else readSteps s
  else
    .error .noRoot

def parse (expression : String) : Except PathError Path :=
  let s := expression.toList
  (readAll s).mapError (Fault.toError (Text.utf8Length s))

end Path

end TemplateCheck
