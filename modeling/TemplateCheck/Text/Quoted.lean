/-!
This module contains quoted text: between two quotes a backslash makes the next character literal.
-/

namespace TemplateCheck

namespace Text

def escape (quote : Char) : List Char → List Char
  | [] => []
  | c :: s => if c = quote ∨ c = '\\' then '\\' :: c :: escape quote s else c :: escape quote s

def quoted (quote : Char) (s : List Char) : List Char :=
  quote :: (escape quote s ++ [quote])

inductive Unclosed where
  | missingQuote
  | missingEscaped
  deriving DecidableEq, Repr

def readQuoted (quote : Char) : List Char → Except Unclosed (List Char × List Char)
  | [] => .error .missingQuote
  | c :: s =>
    if c = quote then
      .ok ([], s)
    else if c = '\\' then
      match s with
      | [] => .error .missingEscaped
      | e :: s => (readQuoted quote s).map fun (text, rest) => (e :: text, rest)
    else
      (readQuoted quote s).map fun (text, rest) => (c :: text, rest)

theorem readQuoted_length {quote : Char} {s text rest : List Char}
    (h : readQuoted quote s = .ok (text, rest)) : rest.length < s.length := by
  fun_induction readQuoted quote s generalizing text rest with
  | case1 => cases h
  | case2 => cases h; simp
  | case3 => cases h
  | case4 e s _ ih =>
    cases hs : readQuoted quote s with
    | error => rw [hs] at h; cases h
    | ok p =>
      rw [hs] at h
      cases h
      have := ih hs
      simp only [List.length_cons]
      omega
  | case5 c s _ _ ih =>
    cases hs : readQuoted quote s with
    | error => rw [hs] at h; cases h
    | ok p =>
      rw [hs] at h
      cases h
      have := ih hs
      simp only [List.length_cons]
      omega

end Text

end TemplateCheck
