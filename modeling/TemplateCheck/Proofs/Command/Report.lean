import TemplateCheck.Command.Report
import TemplateCheck.Proofs.Json.Printed

/-!
This module contains that nothing is lost where verdicts are printed as JSON: reading the text gives
back one object for each verdict, in order.
-/

namespace TemplateCheck

namespace Command

open Json

theorem readString?_jsonChar (n : Nat) (c : Char) (s : List Char) :
    readString? (n + 1) (jsonChar c ++ s)
      = (readString? n s).map fun (text, t) => (c :: text, t) := by
  unfold jsonChar
  split
  . exact readString?_escape rfl
  . exact readString?_escape rfl
  . exact readString?_escape rfl
  . exact readString?_escape rfl
  . exact readString?_escape rfl
  . exact readString?_escape rfl
  . exact readString?_escape rfl
  . next hquote hescape _ _ _ _ _ =>
    split
    . next hcontrol => exact readString?_unicode (readUnicode?_hexDigits hcontrol)
    . next hcontrol => exact readString?_plain hquote hescape hcontrol

theorem readString?_flatMap_jsonChar {n : Nat} {text : List Char} (hn : text.length < n)
    (s : List Char) :
    readString? n (text.flatMap jsonChar ++ '"' :: s) = some (text, s) := by
  induction text generalizing n with
  | nil =>
    obtain ⟨n, rfl⟩ := Nat.exists_eq_succ_of_ne_zero (Nat.ne_of_gt hn)
    rfl
  | cons c text ih =>
    obtain ⟨n, rfl⟩ := Nat.exists_eq_succ_of_ne_zero (Nat.ne_of_gt (Nat.zero_lt_of_lt hn))
    rw [List.flatMap_cons, List.append_assoc, readString?_jsonChar,
      ih (Nat.lt_of_succ_lt_succ hn)]
    rfl

theorem jsonChar_ne_nil (c : Char) : jsonChar c ≠ [] := by
  unfold jsonChar
  split
  case h_8 =>
    split
    all_goals exact List.cons_ne_nil _ _
  all_goals exact List.cons_ne_nil _ _

theorem readString?_jsonString (text : String) (s : List Char) :
    ∃ t, (jsonString text).toList ++ s = '"' :: t
      ∧ readString? (t.length + 1) t = some (text.toList, s) := by
  refine ⟨text.toList.flatMap jsonChar ++ '"' :: s, by simp [jsonString], ?_⟩
  apply readString?_flatMap_jsonChar
  have := length_le_length_flatMap jsonChar_ne_nil text.toList
  rw [List.length_append]
  omega

section Values

variable (d : Nat)

theorem denotes_string (text : String) :
    Denotes (readValue? d) (' ' :: (jsonString text).toList) (.string text) := by
  intro c s _
  obtain ⟨t, ht, hread⟩ := readString?_jsonString text (c :: s)
  rw [List.cons_append, ht, readValue?_eq_readScalar? rfl (by decide) (by decide)]
  change (readString? (t.length + 1) t).map _ = _
  rw [hread]
  simp

theorem denotes_number {n : Nat} (hn : fitsWord n = true) :
    Denotes (readValue? d) (' ' :: Nat.toDigits 10 n) (.number (.integer n)) := by
  intro c s hc
  obtain ⟨x, digits, hx⟩ := List.exists_cons_of_ne_nil (Nat.toDigits_ne_nil (b := 10) (n := n))
  have hdigit : x.isDigit = true :=
    Numeral.isDigit_of_mem_toDigits (n := n) (hx ▸ List.mem_cons_self)
  have hread := readNumber?_toDigits hn hc s
  have hne : ∀ y : Char, y.isDigit = false → x ≠ y := by
    rintro y hy rfl
    rw [hdigit] at hy
    contradiction
  have hspace : isSpace x = false := by
    simp [isSpace, hne]
  have hskip : skipSpace (' ' :: Nat.toDigits 10 n ++ c :: s) = x :: (digits ++ c :: s) := by
    rw [hx]
    exact skipSpace_cons_of_not_isSpace hspace
  rw [hx, List.cons_append] at hread
  rw [readValue?_eq_readScalar? hskip (hne _ rfl) (hne _ rfl)]
  unfold readScalar?
  split
  . next h => exact absurd (List.cons.inj h).1 (hne _ rfl)
  . next h => exact absurd (List.cons.inj h).1 (hne _ rfl)
  . next h => exact absurd (List.cons.inj h).1 (hne _ rfl)
  . next h => exact absurd (List.cons.inj h).1 (hne _ rfl)
  . rw [hread]
    rfl

theorem denotes_boolean (b : Bool) :
    Denotes (readValue? d) (' ' :: (truthWord b).toList) (.boolean b) := by
  intro c s _
  cases b with
  | false =>
    have hskip : skipSpace (' ' :: (truthWord false).toList ++ c :: s)
      = 'f' :: ("alse".toList ++ c :: s) := rfl
    exact readValue?_eq_readScalar? hskip (by decide) (by decide) d
  | true =>
    have hskip : skipSpace (' ' :: (truthWord true).toList ++ c :: s)
      = 't' :: ("rue".toList ++ c :: s) := rfl
    exact readValue?_eq_readScalar? hskip (by decide) (by decide) d

end Values

def memberText (member : String × List Char × Value) : List Char :=
  "\n    ".toList ++ ((jsonString member.1).toList ++ ':' :: ' ' :: member.2.1)

theorem exists_skipSpace_memberText (member : String × List Char × Value) (s : List Char) :
    ∃ t, skipSpace (memberText member ++ s) = '"' :: t
      ∧ readString? (t.length + 1) t
        = some (member.1.toList, ':' :: ' ' :: (member.2.1 ++ s)) := by
  obtain ⟨t, ht, hkey⟩ := readString?_jsonString member.1 (':' :: ' ' :: (member.2.1 ++ s))
  have hmember : memberText member ++ s = "\n    ".toList ++ '"' :: t := by
    rw [← ht]
    unfold memberText
    simp only [List.append_assoc, List.cons_append]
  refine ⟨t, ?_, hkey⟩
  rw [hmember]
  rfl

theorem denotes_memberText {read : Reader Value} {member : String × List Char × Value}
    (h : Denotes read (' ' :: member.2.1) member.2.2) :
    Denotes (readMember? read) (memberText member) (member.1, member.2.2) := by
  intro c s hc
  obtain ⟨t, hskip, hkey⟩ := exists_skipSpace_memberText member (c :: s)
  unfold readMember?
  rw [hskip]
  change (readString? (t.length + 1) t >>= _) = _
  rw [hkey]
  change (read (' ' :: member.2.1 ++ c :: s) >>= _) = _
  rw [h c s hc]
  simp

theorem toList_json (v : Verdict) :
    '\n' :: v.json.toList
      = '\n' :: ' ' :: ' ' :: '\x7b'
        :: (parts memberText ("source", (jsonString v.source).toList, .string v.source)
            [("index", Nat.toDigits 10 v.index, .number (.integer v.index)),
              ("valid", (truthWord v.valid).toList, .boolean v.valid)]
          ++ '\n' :: "  \x7d".toList) := by
  have hsource : (jsonString "source").toList = "\"source\"".toList := by decide
  have hindex : (jsonString "index").toList = "\"index\"".toList := by decide
  have hvalid : (jsonString "valid").toList = "\"valid\"".toList := by decide
  unfold Verdict.json parts memberText
  simp [hsource, hindex, hvalid, Nat.toString_eq_repr, Nat.toList_repr]

theorem denotes_json (d : Nat) {v : Verdict} (hv : fitsWord v.index = true) :
    Denotes (readValue? (d + 1)) ('\n' :: v.json.toList)
      (.object [("source", .string v.source), ("index", .number (.integer v.index)),
        ("valid", .boolean v.valid)]) := by
  intro c s _
  have hmembers : ∀ member ∈ [("source", (jsonString v.source).toList, Value.string v.source),
      ("index", Nat.toDigits 10 v.index, .number (.integer v.index)),
      ("valid", (truthWord v.valid).toList, .boolean v.valid)],
      Denotes (readMember? (readValue? d)) (memberText member) (member.1, member.2.2) := by
    intro member hmember
    apply denotes_memberText
    simp only [List.mem_cons, List.not_mem_nil, or_false] at hmember
    rcases hmember with rfl | rfl | rfl
    . exact denotes_string d v.source
    . exact denotes_number d hv
    . exact denotes_boolean d v.valid
  have hfront : ∃ c t, skipSpace (memberText ("source", (jsonString v.source).toList,
      Value.string v.source)) = c :: t ∧ c ≠ '\x7d' := by
    obtain ⟨t, ht, -⟩ := exists_skipSpace_memberText ("source", (jsonString v.source).toList,
      Value.string v.source) []
    rw [List.append_nil] at ht
    exact ⟨_, t, ht, by decide⟩
  have htail : skipSpace ("  \x7d".toList ++ c :: s) = '\x7d' :: c :: s := rfl
  have hall := readAll?_parts (by decide) hmembers hfront htail
  rw [toList_json]
  simp only [List.cons_append, List.append_assoc]
  rw [readValue?_object rfl, hall]
  rfl

theorem intercalate_eq_parts {β : Type} (text : β → List Char) (x : β) (more : List β) :
    '\n' :: [',', '\n'].intercalate ((x :: more).map text)
      = parts (fun y => '\n' :: text y) x more := by
  induction more generalizing x with
  | nil => simp [parts]
  | cons y more ih =>
    rw [parts_cons, ← ih, List.map_cons, List.map_cons, List.intercalate_cons_cons]
    simp

theorem parse?_report {vs : List Verdict} (hvs : ∀ v ∈ vs, fitsWord v.index = true) :
    Json.parse? (report .json vs)
      = some (.array (vs.map fun v => .object [("source", .string v.source),
          ("index", .number (.integer v.index)), ("valid", .boolean v.valid)])) := by
  unfold Json.parse? depthLimit
  cases vs with
  | nil => rfl
  | cons v vs =>
    have hfront : ∃ c t, skipSpace ('\n' :: v.json.toList) = c :: t ∧ c ≠ ']' := by
      rw [toList_json]
      exact ⟨'\x7b', _, rfl, by decide⟩
    have htail : skipSpace "]\n".toList = [']', '\n'] := rfl
    have hall := readAll?_parts (by decide) (fun v hv => denotes_json 125 (hvs v hv)) hfront htail
    have htext : (report .json (v :: vs)).toList
        = '[' :: (parts (fun v : Verdict => '\n' :: v.json.toList) v vs
          ++ '\n' :: "]\n".toList) := by
      rw [← intercalate_eq_parts (fun v : Verdict => v.json.toList)]
      simp [report, String.toList_intercalate, Function.comp_def]
    rw [htext, readValue?_array rfl, hall]
    rfl

end Command

end TemplateCheck
