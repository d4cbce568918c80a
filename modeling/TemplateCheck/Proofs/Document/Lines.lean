import TemplateCheck.Document.Parse
import TemplateCheck.Outcome
import TemplateCheck.Proofs.Text.Lines

/-!
This module contains what the reading of JSON Lines gives, told from the lines of the text: the
candidates in those that are not blank, or the first of them that is not JSON.
-/

namespace TemplateCheck

namespace Document

def candidateOf? (line : List Char) : Option Data :=
  (Json.parse? (String.ofList line)).map Data.ofJson

def filled (ls : List (List Char)) : List (List Char) :=
  ls.filter fun line => !Text.allBlank line

def FirstInvalid (ls : List (List Char)) (n : Nat) : Prop :=
  ∃ before line after, ls = before ++ line :: after ∧ n = before.length + 1
    ∧ Text.allBlank line = false ∧ candidateOf? line = none
    ∧ ∀ l ∈ filled before, (candidateOf? l).isSome

def readLine (l : List Char × Nat) : Except Error Data :=
  match Json.parse? (String.ofList l.1) with
  | some v => .ok (Data.ofJson v)
  | none => .error (.invalidJson l.2)

def readLines (n : Nat) (ls : List (List Char)) : Except Error (List Data) :=
  ((ls.zipIdx n).filter fun l => !Text.allBlank l.1).mapM readLine

theorem jsonLines_eq (text : String) :
    jsonLines text = (readLines 1 (Text.lines text.toList)).bind fun
      | [] => .error .noJson
      | ds => .ok ds := rfl

theorem readLine_eq (line : List Char) (n : Nat) :
    readLine (line, n) = match candidateOf? line with
      | some d => .ok d
      | none => .error (.invalidJson n) := by
  unfold readLine candidateOf?
  cases Json.parse? (String.ofList line) with
  | none => rfl
  | some v => rfl

theorem filled_cons (line : List Char) (ls : List (List Char)) :
    filled (line :: ls) = if Text.allBlank line then filled ls else line :: filled ls := by
  unfold filled
  rw [List.filter_cons]
  cases Text.allBlank line with
  | true => rfl
  | false => rfl

theorem readLines_cons (n : Nat) (line : List Char) (ls : List (List Char)) :
    readLines n (line :: ls) = if Text.allBlank line then readLines (n + 1) ls else
      match candidateOf? line with
      | some d => (readLines (n + 1) ls).map (d :: ·)
      | none => .error (.invalidJson n) := by
  unfold readLines
  rw [List.zipIdx_cons, List.filter_cons]
  dsimp only
  cases Text.allBlank line with
  | true => rfl
  | false =>
    rw [Bool.not_false, if_pos rfl, if_neg Bool.false_ne_true, List.mapM_cons, readLine_eq]
    cases candidateOf? line with
    | none => rfl
    | some d => rfl

theorem readLines_eq_ok_iff {n : Nat} {ls : List (List Char)} {ds : List Data} :
    readLines n ls = .ok ds ↔ (filled ls).map candidateOf? = ds.map some := by
  induction ls generalizing n ds with
  | nil =>
    constructor
    . intro h
      cases h
      rfl
    . intro h
      rw [eq_comm, filled, List.filter_nil, List.map_nil, List.map_eq_nil_iff] at h
      rw [h]
      rfl
  | cons line ls ih =>
    rw [readLines_cons, filled_cons]
    split
    . exact ih
    . rw [List.map_cons]
      cases candidateOf? line with
      | none =>
        cases ds with
        | nil => simp
        | cons d ds => simp
      | some d =>
        dsimp only
        rw [Outcome.map_eq_ok_iff]
        simp only [ih]
        cases ds with
        | nil => simp
        | cons d' ds =>
          simp only [List.map_cons, List.cons.injEq, Option.some.injEq]
          constructor
          . rintro ⟨ds', h, hd, rfl⟩
            exact ⟨hd, h⟩
          . rintro ⟨hd, h⟩
            exact ⟨ds, h, hd, rfl⟩

theorem firstInvalid_cons_one_iff {line : List Char} {ls : List (List Char)} :
    FirstInvalid (line :: ls) 1 ↔ Text.allBlank line = false ∧ candidateOf? line = none := by
  constructor
  . rintro ⟨before, line', after, hls, hn, hfilled, hnone, -⟩
    obtain rfl : before = [] := List.eq_nil_of_length_eq_zero (by omega)
    cases hls
    exact ⟨hfilled, hnone⟩
  . rintro ⟨hfilled, hnone⟩
    exact ⟨[], line, ls, rfl, rfl, hfilled, hnone, nofun⟩

theorem firstInvalid_cons_succ_iff {line : List Char} {ls : List (List Char)} {i : Nat} :
    FirstInvalid (line :: ls) (i + 2)
      ↔ (Text.allBlank line = true ∨ (candidateOf? line).isSome) ∧ FirstInvalid ls (i + 1) := by
  have hforall : ∀ before, (∀ l ∈ filled (line :: before), (candidateOf? l).isSome)
      ↔ (Text.allBlank line = true ∨ (candidateOf? line).isSome)
        ∧ ∀ l ∈ filled before, (candidateOf? l).isSome := by
    intro before
    rw [filled_cons]
    cases Text.allBlank line with
    | true => simp
    | false => simp
  constructor
  . rintro ⟨before, line', after, hls, hn, hfilled, hnone, hbefore⟩
    cases before with
    | nil => simp at hn
    | cons l before =>
      obtain ⟨rfl, rfl⟩ := List.cons.inj hls
      rw [hforall] at hbefore
      exact ⟨hbefore.1, before, line', after, rfl, by simpa using hn, hfilled, hnone, hbefore.2⟩
  . rintro ⟨hline, before, line', after, rfl, hn, hfilled, hnone, hbefore⟩
    refine ⟨line :: before, line', after, rfl, by simpa using hn, hfilled, hnone, ?_⟩
    rw [hforall]
    exact ⟨hline, hbefore⟩

theorem exists_firstInvalid_cons_iff {line : List Char} {ls : List (List Char)} {P : Nat → Prop} :
    (∃ i, FirstInvalid (line :: ls) (i + 1) ∧ P i)
      ↔ (Text.allBlank line = false ∧ candidateOf? line = none) ∧ P 0
        ∨ (Text.allBlank line = true ∨ (candidateOf? line).isSome)
          ∧ ∃ i, FirstInvalid ls (i + 1) ∧ P (i + 1) := by
  constructor
  . rintro ⟨i, hi, h⟩
    cases i with
    | zero => exact .inl ⟨firstInvalid_cons_one_iff.mp hi, h⟩
    | succ i =>
      rw [firstInvalid_cons_succ_iff] at hi
      exact .inr ⟨hi.1, i, hi.2, h⟩
  . rintro (⟨hi, h⟩ | ⟨hline, i, hi, h⟩)
    . exact ⟨0, firstInvalid_cons_one_iff.mpr hi, h⟩
    . exact ⟨i + 1, firstInvalid_cons_succ_iff.mpr ⟨hline, hi⟩, h⟩

theorem readLines_eq_error_iff {n : Nat} {ls : List (List Char)} {e : Error} :
    readLines n ls = .error e ↔ ∃ i, FirstInvalid ls (i + 1) ∧ e = .invalidJson (n + i) := by
  induction ls generalizing n with
  | nil =>
    constructor
    . intro h
      cases h
    . rintro ⟨i, ⟨before, line, after, hls, -⟩, -⟩
      simp at hls
  | cons line ls ih =>
    -- the lines behind this one are counted from the number behind its own
    have htail : (∃ i, FirstInvalid ls (i + 1) ∧ e = .invalidJson (n + (i + 1)))
        ↔ readLines (n + 1) ls = .error e := by
      rw [ih]
      simp only [Nat.add_assoc, Nat.add_comm 1]
    rw [exists_firstInvalid_cons_iff (P := fun i => e = .invalidJson (n + i)), htail,
      readLines_cons]
    cases Text.allBlank line with
    | true => simp
    | false =>
      cases candidateOf? line with
      | none => simp [eq_comm]
      | some d => cases readLines (n + 1) ls <;> simp [Except.map]

theorem exists_firstInvalid_iff {ls : List (List Char)} {P : Nat → Prop} :
    (∃ n, FirstInvalid ls n ∧ P n) ↔ ∃ i, FirstInvalid ls (i + 1) ∧ P (i + 1) := by
  constructor
  . rintro ⟨_, ⟨before, line, after, hls, rfl, h⟩, hP⟩
    exact ⟨before.length, ⟨before, line, after, hls, rfl, h⟩, hP⟩
  . rintro ⟨i, h⟩
    exact ⟨i + 1, h⟩

theorem readLines_eq_ok_nil_iff {n : Nat} {ls : List (List Char)} :
    readLines n ls = .ok [] ↔ filled ls = [] := by
  rw [readLines_eq_ok_iff, List.map_nil, List.map_eq_nil_iff]

variable {text : String} {ds : List Data}

theorem filled_eq_nil_iff {ls : List (List Char)} :
    filled ls = [] ↔ ∀ line ∈ ls, Text.allBlank line = true := by
  unfold filled
  rw [List.filter_eq_nil_iff]
  simp

theorem filled_append (ls ls' : List (List Char)) :
    filled (ls ++ ls') = filled ls ++ filled ls' := by
  unfold filled
  exact List.filter_append ls ls'

theorem jsonLines_eq_ok_iff :
    jsonLines text = .ok ds ↔ filled (Text.lines text.toList) ≠ []
      ∧ (filled (Text.lines text.toList)).map candidateOf? = ds.map some := by
  rw [jsonLines_eq]
  constructor
  . intro h
    obtain ⟨ds', hds', h⟩ := Outcome.bind_eq_ok_iff.mp h
    rw [readLines_eq_ok_iff] at hds'
    cases ds' with
    | nil => contradiction
    | cons d ds' =>
      cases h
      refine ⟨?_, hds'⟩
      intro hnil
      rw [hnil] at hds'
      contradiction
  . intro ⟨hne, hds⟩
    apply Outcome.bind_eq_ok_iff.mpr
    refine ⟨ds, readLines_eq_ok_iff.mpr hds, ?_⟩
    cases ds with
    | nil => exact absurd (List.map_eq_nil_iff.mp hds) hne
    | cons d ds => rfl

theorem jsonLines_eq_error_iff {e : Error} :
    jsonLines text = .error e
      ↔ (∃ n, FirstInvalid (Text.lines text.toList) n ∧ e = .invalidJson n)
        ∨ filled (Text.lines text.toList) = [] ∧ e = .noJson := by
  have hread : (∃ n, FirstInvalid (Text.lines text.toList) n ∧ e = .invalidJson n)
      ↔ readLines 1 (Text.lines text.toList) = .error e := by
    rw [readLines_eq_error_iff, exists_firstInvalid_iff]
    simp only [Nat.add_comm 1]
  rw [hread, jsonLines_eq, ← readLines_eq_ok_nil_iff]
  cases readLines 1 (Text.lines text.toList) with
  | error e' => simp [Except.bind]
  | ok ds =>
    cases ds with
    | nil => simp [Except.bind, eq_comm]
    | cons d ds => simp [Except.bind]

theorem toOption_jsonLines_congr {text text' : String}
    (h : filled (Text.lines text.toList) = filled (Text.lines text'.toList)) :
    (jsonLines text).toOption = (jsonLines text').toOption := by
  cases hds : jsonLines text with
  | ok ds =>
    rw [jsonLines_eq_ok_iff, h, ← jsonLines_eq_ok_iff] at hds
    rw [hds]
  | error e =>
    cases hds' : jsonLines text' with
    | error e' => rfl
    | ok ds' =>
      rw [jsonLines_eq_ok_iff, ← h, ← jsonLines_eq_ok_iff, hds] at hds'
      contradiction

theorem jsonLines_append {a b : String} {as bs : List Data} (ha : Text.Ended a.toList)
    (has : jsonLines a = .ok as) (hbs : jsonLines b = .ok bs) :
    jsonLines (a ++ b) = .ok (as ++ bs) := by
  rw [jsonLines_eq_ok_iff] at has hbs ⊢
  rw [String.toList_append, Text.lines_append ha, filled_append]
  rw [List.map_append, List.map_append, has.2, hbs.2]
  refine ⟨?_, rfl⟩
  intro hnil
  exact has.1 (List.append_eq_nil_iff.mp hnil).1

theorem filled_lines_of_allBlank {s : List Char} (h : Text.allBlank s = true) :
    filled (Text.lines s) = [] :=
  filled_eq_nil_iff.mpr (Text.allBlank_of_mem_lines h)

theorem filled_lines_append_of_allBlank {blank s : List Char} (h : Text.allBlank blank = true)
    (hs : Text.Ended blank ∨ s = []) :
    filled (Text.lines (blank ++ s)) = filled (Text.lines s) := by
  rcases hs with hended | rfl
  . rw [Text.lines_append hended, filled_append, filled_lines_of_allBlank h, List.nil_append]
  . rw [List.append_nil, filled_lines_of_allBlank h]
    rfl

theorem toOption_jsonLines_append_blank {a blank b : String} (ha : Text.Ended a.toList)
    (hblank : Text.allBlank blank.toList = true) (hb : Text.Ended blank.toList ∨ b = "") :
    (jsonLines (a ++ blank ++ b)).toOption = (jsonLines (a ++ b)).toOption := by
  rw [← String.toList_eq_nil_iff] at hb
  apply toOption_jsonLines_congr
  rw [String.append_assoc, String.toList_append, String.toList_append, String.toList_append]
  rw [Text.lines_append ha, Text.lines_append ha, filled_append, filled_append,
    filled_lines_append_of_allBlank hblank hb]

theorem jsonLines_of_filled_eq_singleton {text : String} {line : List Char} {v : Json.Value}
    (hline : filled (Text.lines text.toList) = [line])
    (hv : Json.parse? (String.ofList line) = some v) : jsonLines text = .ok [Data.ofJson v] := by
  rw [jsonLines_eq_ok_iff, hline]
  refine ⟨List.cons_ne_nil _ _, ?_⟩
  unfold candidateOf?
  rw [List.map_singleton, hv]
  rfl

/--
The reading of JSON Lines is exact. It gives the candidates of the lines that are not blank if there
is one and they are all JSON, names the first that is not JSON by its number among all lines, and
otherwise says that all lines are blank. So the candidates of two texts behind one another are those
of both, and blank lines make no difference.
-/
theorem jsonLines_eq_iff :
    (∀ text : String, ∃ ls, (∀ ls', Text.Cut text.toList ls' ↔ ls' = ls)
      ∧ (∀ ds, jsonLines text = .ok ds ↔ (∃ line ∈ ls, Text.allBlank line = false)
        ∧ (filled ls).map candidateOf? = ds.map some)
      ∧ (∀ n, jsonLines text = .error (.invalidJson n) ↔ FirstInvalid ls n)
      ∧ (jsonLines text = .error .noJson ↔ ∀ line ∈ ls, Text.allBlank line = true))
    ∧ (∀ n, (Error.invalidJson n).message = "Invalid JSON on line " ++ toString n)
    ∧ Error.noJson.message = "No valid JSON found in JSONL content"
    ∧ (∀ (a b : String) (as bs : List Data), Text.Ended a.toList → jsonLines a = .ok as →
      jsonLines b = .ok bs → jsonLines (a ++ b) = .ok (as ++ bs))
    ∧ (∀ a blank b : String, Text.Ended a.toList → Text.allBlank blank.toList = true →
      Text.Ended blank.toList ∨ b = "" →
      (jsonLines (a ++ blank ++ b)).toOption = (jsonLines (a ++ b)).toOption)
    ∧ ∀ text text' : String,
      filled (Text.lines text.toList) = filled (Text.lines text'.toList) →
      (jsonLines text).toOption = (jsonLines text').toOption := by
  refine ⟨?_, ?_, rfl, ?_, ?_, ?_⟩
  . intro text
    refine ⟨Text.lines text.toList, ?_, ?_, ?_, ?_⟩
    . intro ls'
      constructor
      . exact Text.Cut.eq_lines
      . rintro rfl
        exact Text.cut_lines _
    . intro ds
      rw [jsonLines_eq_ok_iff, ne_eq, filled_eq_nil_iff]
      simp
    . intro n
      rw [jsonLines_eq_error_iff]
      simp
    . rw [jsonLines_eq_error_iff, ← filled_eq_nil_iff]
      simp
  . intro n
    rfl
  . intro a b as bs
    exact jsonLines_append
  . intro a blank b
    exact toOption_jsonLines_append_blank
  . intro text text'
    exact toOption_jsonLines_congr

theorem jsonLines_eq_iff_blank_between :
    Text.Ended "1\r\n".toList ∧ jsonLines "1\r\n" = .ok [.number (.integer 1)]
      ∧ jsonLines "[\"a\"]" = .ok [.sequence [.string "a"]]
      ∧ jsonLines ("1\r\n" ++ "[\"a\"]") = .ok [.number (.integer 1), .sequence [.string "a"]]
      ∧ Text.allBlank "\u3000\n".toList = true
      ∧ (jsonLines ("1\r\n" ++ "\u3000\n" ++ "[\"a\"]")).toOption
        = some [.number (.integer 1), .sequence [.string "a"]]
      ∧ jsonLines "1\n\n\x7b" = .error (.invalidJson 3) := by
  obtain ⟨hlines, -, -, happend, hblank, -⟩ := jsonLines_eq_iff
  have hended : Text.Ended "1\r\n".toList := .inr (by decide)
  have hended' : Text.Ended "\u3000\n".toList := .inr (by decide)
  have hnumber : Json.parse? "1" = some (.number (.integer 1)) := rfl
  have harray : Json.parse? "[\"a\"]" = some (.array [.string "a"]) := rfl
  have hfront : jsonLines "1\r\n" = .ok [.number (.integer 1)] :=
    jsonLines_of_filled_eq_singleton (by decide) hnumber
  have hback : jsonLines "[\"a\"]" = .ok [.sequence [.string "a"]] :=
    jsonLines_of_filled_eq_singleton (by decide) harray
  have hboth := happend _ _ _ _ hended hfront hback
  refine ⟨hended, hfront, hback, hboth, by decide, ?_, ?_⟩
  . rw [hblank _ "\u3000\n" _ hended (by decide) (.inl hended'), hboth]
    rfl
  . obtain ⟨ls, hcut, -, hinvalid, -⟩ := hlines "1\n\n\x7b"
    obtain rfl : [['1'], [], ['{']] = ls := by
      rw [← hcut]
      apply @Text.Cut.line ['1'] _ _ (by decide)
      apply @Text.Cut.line [] _ _ (by decide)
      exact .last (by decide) (by decide)
    rw [hinvalid]
    exact ⟨[['1'], []], ['{'], [], rfl, rfl, by decide, rfl, by decide +kernel⟩

end Document

end TemplateCheck
