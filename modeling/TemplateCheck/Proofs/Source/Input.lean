import Mathlib.Data.List.TakeWhile
import TemplateCheck.Proofs.Document.Lines
import TemplateCheck.Proofs.Path.Token
import TemplateCheck.Proofs.Source.Names
import TemplateCheck.Proofs.Text.Utf8
import TemplateCheck.Proofs.Yaml.Documents

/-!
This module contains when JSON Lines from standard input mean what they mean in a file: when the
text is not YAML, which no text is whose first line is a string, an array or an object.
-/

namespace TemplateCheck

namespace Source

def Later (tail : List Char) (lines : List (List Char)) : Prop :=
  lines ≠ [] → ∃ ret s ls, tail = ret ++ '\n' :: s ∧ (∀ c ∈ ret, c = '\r')
    ∧ Text.Cut s ls ∧ Document.filled ls = lines

theorem exists_append_of_filled {s line : List Char} {ls lines : List (List Char)}
    (hcut : Text.Cut s ls) (hls : Document.filled ls = line :: lines) :
    ∃ front tail, s = front ++ (line ++ tail) ∧ (∀ c ∈ front, Text.isBlank c = true)
      ∧ Later tail lines := by
  induction hcut with
  | nil => contradiction
  | @last line' hne h =>
    rw [Document.filled_cons] at hls
    split at hls
    . contradiction
    . cases hls
      exact ⟨[], [], (List.append_nil _).symm, nofun, fun h => absurd rfl h⟩
  | @line line' s ls h hcut ih =>
    obtain ⟨ret, hline, hret⟩ := Text.exists_eq_withoutReturn_append line'
    rw [Document.filled_cons] at hls
    split at hls
    . next hblank =>
      obtain ⟨front, tail, rfl, hfront, hlater⟩ := ih hls
      have hblank' : ∀ c ∈ line', Text.isBlank c = true := by
        rw [hline, List.forall_mem_append]
        refine ⟨List.all_eq_true.mp hblank, ?_⟩
        intro c hc
        rw [hret c hc]
        decide
      refine ⟨line' ++ '\n' :: front, tail, by simp, ?_, hlater⟩
      rw [List.forall_mem_append, List.forall_mem_cons]
      exact ⟨hblank', by decide, hfront⟩
    . cases hls
      refine ⟨[], ret ++ '\n' :: s, ?_, nofun, fun _ => ⟨ret, s, ls, rfl, hret, hcut, rfl⟩⟩
      rw [List.nil_append, ← List.append_assoc, ← hline]

open Yaml.Scan

theorem exists_startsNode_of_shaped {rest line : List Char} (h : Json.Shaped rest line)
    (tail : List Char) : ∃ g x r, line ++ tail = g ++ x :: r ∧ (∀ y ∈ g, Yaml.isGapChar y = true)
      ∧ Solid x ∧ Begins x r ∧ StartsNode x r := by
  obtain ⟨g, hline, hgap⟩ := Yaml.Scalar.exists_gap_append_skipSpace line
  cases h with
  | @brackets c t hs hc ht =>
    have hmem : c ∈ ['[', ']', '\x7b', '\x7d', ',', ':', '"'] := by
      rcases hc with rfl | rfl
      . decide
      . decide
    obtain ⟨hsolid, hbegins⟩ := begins_of_mem hmem (t ++ tail)
    exact ⟨g, c, t ++ tail, by rw [hline, hs, List.append_assoc, List.cons_append], hgap, hsolid,
      hbegins, .opening hc⟩
  | @string u hs hu =>
    obtain ⟨hsolid, hbegins⟩ := begins_of_mem (x := '"') (by decide) (u ++ '"' :: rest ++ tail)
    exact ⟨g, '"', u ++ '"' :: rest ++ tail, by rw [hline, hs, List.append_assoc, List.cons_append],
      hgap, hsolid, hbegins, .quote rfl⟩
  | @word w hs hw =>
    obtain ⟨x, r, hxr, hsolid, hbegins, hcolon, hplain⟩ := begins_of_bareWord (t := rest ++ tail) hw
    exact ⟨g, x, r, by rw [hline, hs, List.append_assoc, List.append_assoc, hxr], hgap, hsolid,
      hbegins, .plain hplain hcolon⟩

theorem startsNode_of_isBlank {x : Char} (hx : Text.isBlank x = true)
    (hgap : Yaml.isGapChar x = false) (r : List Char) :
    Solid x ∧ Begins x r ∧ StartsNode x r := by
  have hne : ∀ y, Text.isBlank y = false → x ≠ y := by
    rintro y hy rfl
    rw [hx] at hy
    contradiction
  have hindicators : (indicators.all fun y => !Text.isBlank y) = true := by decide +kernel
  simp only [List.all_eq_true, Bool.not_eq_true'] at hindicators
  refine ⟨⟨hgap, hne _ (by decide), hne _ (by decide)⟩, ⟨hne _ (by decide), hne _ (by decide),
    fun h => absurd h (hne _ (by decide))⟩, .plain ?_ (hne _ (by decide))⟩
  intro s
  apply token?_eq_plain?
  . rw [List.contains_eq_mem, decide_eq_false_iff_not]
    exact fun hmem => hne x (hindicators x hmem) rfl
  . rw [Yaml.isGapChar, Bool.or_eq_false_iff] at hgap
    exact hgap.1

theorem exists_startsNode {front rest line : List Char}
    (hfront : ∀ c ∈ front, Text.isBlank c = true) (h : Json.Shaped rest line) (tail : List Char) :
    ∃ g x r, front ++ (line ++ tail) = g ++ x :: r ∧ (∀ y ∈ g, Yaml.isGapChar y = true)
      ∧ Solid x ∧ Begins x r ∧ StartsNode x r := by
  induction front with
  | nil => exact exists_startsNode_of_shaped h tail
  | cons c front ih =>
    rw [List.forall_mem_cons] at hfront
    cases hc : Yaml.isGapChar c with
    | true =>
      obtain ⟨g, x, r, heq, hg, hx⟩ := ih hfront.2
      refine ⟨c :: g, x, r, congrArg _ heq, ?_, hx⟩
      rw [List.forall_mem_cons]
      exact ⟨hc, hg⟩
    | false =>
      exact ⟨[], c, front ++ (line ++ tail), rfl, nofun, startsNode_of_isBlank hfront.1 hc _⟩

theorem isGapChar_of_skipSpace_eq_nil {s : List Char} (h : Json.skipSpace s = []) :
    ∀ c ∈ s, Yaml.isGapChar c = true := by
  intro c hc
  rw [Json.skipSpace, List.dropWhile_eq_nil_iff] at h
  exact Yaml.Scalar.isGapChar_of_isSpace (h c hc)

theorem exists_shaped_of_candidateOf? {line : List Char} {d : Data}
    (h : Document.candidateOf? line = some d) :
    ∃ rest, Json.Shaped rest line ∧ Json.skipSpace rest = []
      ∧ ∀ s, d = .string s → ∃ u, Json.skipSpace line = '"' :: u := by
  obtain ⟨v, hv, rfl⟩ := Option.map_eq_some_iff.mp h
  obtain ⟨rest, hshaped, hrest, hstring⟩ := Json.exists_shaped_of_parse? hv
  rw [String.toList_ofList] at hshaped hstring
  refine ⟨rest, hshaped, hrest, ?_⟩
  intro s hs
  cases v with
  | string text => exact hstring text rfl
  | _ => contradiction

theorem continues_of_later {tail rest : List Char} {lines : List (List Char)}
    (hlater : Later tail lines) (hne : lines ≠ [])
    (hjson : ∀ line ∈ lines, (Document.candidateOf? line).isSome)
    (hrest : Json.skipSpace rest = []) : Continues (rest ++ tail) := by
  obtain ⟨ret, s, ls, rfl, hret, hcut, hls⟩ := hlater hne
  obtain ⟨line, lines, rfl⟩ := List.exists_cons_of_ne_nil hne
  obtain ⟨front, tail', rfl, hfront, -⟩ := exists_append_of_filled hcut hls
  obtain ⟨d, hd⟩ := Option.isSome_iff_exists.mp (hjson line List.mem_cons_self)
  obtain ⟨rest', hshaped, -⟩ := exists_shaped_of_candidateOf? hd
  obtain ⟨g, x, r, heq, hg, hx⟩ := exists_startsNode hfront hshaped tail'
  refine ⟨rest ++ (ret ++ '\n' :: g), x, r, by simp [heq], ?_, ⟨'\n', by simp, by decide⟩, hx⟩
  rw [List.forall_mem_append, List.forall_mem_append, List.forall_mem_cons]
  refine ⟨isGapChar_of_skipSpace_eq_nil hrest, ?_, by decide, hg⟩
  intro c hc
  rw [hret c hc]
  decide

def OpensWord (text : String) : Prop :=
  ∃ c r, text.toList.dropWhile Yaml.isGapChar = c :: r ∧ Json.isWordChar c = true

def OpensNode (text : String) : Prop :=
  ∃ c r, text.toList.dropWhile Yaml.isGapChar = c :: r ∧ (c = '[' ∨ c = '\x7b' ∨ c = '"')

theorem dropWhile_of_blank {front s r : List Char} {c : Char}
    (hfront : ∀ y ∈ front, Text.isBlank y = true) (hc : Text.isBlank c = false)
    (h : (front ++ s).dropWhile Yaml.isGapChar = c :: r) :
    (∀ y ∈ front, Yaml.isGapChar y = true) ∧ s.dropWhile Yaml.isGapChar = c :: r := by
  induction front with
  | nil => exact ⟨nofun, h⟩
  | cons y front ih =>
    rw [List.forall_mem_cons] at hfront ⊢
    cases hy : Yaml.isGapChar y with
    | true =>
      rw [List.cons_append, List.dropWhile_cons_of_pos hy] at h
      obtain ⟨hgap, hs⟩ := ih hfront.2 h
      exact ⟨⟨rfl, hgap⟩, hs⟩
    | false =>
      rw [List.cons_append, List.dropWhile_cons_of_neg (by simp [hy])] at h
      cases h
      rw [hfront.1] at hc
      contradiction

theorem exists_cons_of_shaped {rest line : List Char} (h : Json.Shaped rest line) :
    ∃ x s, Json.skipSpace line = x :: s ∧ Yaml.isGapChar x = false := by
  cases h with
  | brackets hs hc =>
    refine ⟨_, _, hs, ?_⟩
    rcases hc with rfl | rfl
    . decide
    . decide
  | string hs => exact ⟨_, _, hs, by decide⟩
  | word hs hw =>
    obtain ⟨x, w, rfl, -⟩ := hw.front
    exact ⟨x, _, hs, Yaml.Scalar.isGapChar_of_isWordChar (hw.all x List.mem_cons_self)⟩

theorem exists_append_of_dropWhile {text : String} {front line rest tail r : List Char} {c : Char}
    (htext : text.toList = front ++ (line ++ tail)) (hfront : ∀ y ∈ front, Text.isBlank y = true)
    (h : Json.Shaped rest line) (hc : text.toList.dropWhile Yaml.isGapChar = c :: r)
    (hblank : Text.isBlank c = false) :
    ∃ g s, text.toList = g ++ (Json.skipSpace line ++ tail) ∧ (∀ y ∈ g, Yaml.isGapChar y = true)
      ∧ Json.skipSpace line = c :: s := by
  rw [htext] at hc
  obtain ⟨hgap, hdrop⟩ := dropWhile_of_blank hfront hblank hc
  obtain ⟨x, s, hx, hxgap⟩ := exists_cons_of_shaped h
  obtain ⟨g, hline, hspaces⟩ := Yaml.Scalar.exists_gap_append_skipSpace line
  rw [hline, List.append_assoc, List.dropWhile_append_of_pos hspaces, hx, List.cons_append,
    List.dropWhile_cons_of_neg (by simp [hxgap])] at hdrop
  obtain ⟨rfl, -⟩ := List.cons.inj hdrop
  refine ⟨front ++ g, s, ?_, ?_, hx⟩
  . rw [List.append_assoc, ← List.append_assoc g, ← hline, htext]
  . rw [List.forall_mem_append]
    exact ⟨hgap, hspaces⟩

theorem leads_of_opensNode {text : String} {front line rest tail : List Char}
    (htext : text.toList = front ++ (line ++ tail)) (hfront : ∀ c ∈ front, Text.isBlank c = true)
    (h : Json.Shaped rest line) (hopens : OpensNode text) : Leads (rest ++ tail) text.toList := by
  obtain ⟨c, r, hc, hcases⟩ := hopens
  have hblank : Text.isBlank c = false ∧ Json.isWordChar c = false := by
    rcases hcases with rfl | rfl | rfl
    . decide
    . decide
    . decide
  obtain ⟨g, s, heq, hg, hs⟩ := exists_append_of_dropWhile htext hfront h hc hblank.1
  cases h with
  | brackets hs hx ht => exact .brackets (by rw [heq, hs]; rfl) hg hx (ht.append tail)
  | string hs hu => exact .quotes (by rw [heq, hs]; simp) hg hu
  | word hs' hw =>
    obtain ⟨x, w, rfl, -⟩ := hw.front
    obtain ⟨rfl, -⟩ := List.cons.inj (hs'.symm.trans hs)
    rw [hw.all x List.mem_cons_self] at hblank
    exact absurd hblank.2 Bool.true_eq_false.mp

theorem isBlank_eq_false_of_isWordChar {c : Char} (h : Json.isWordChar c = true) :
    Text.isBlank c = false := by
  rw [Bool.eq_false_iff]
  intro hc
  have hall : (Text.blanks.all fun c => !Json.isWordChar c) = true := by decide +kernel
  have hword := List.all_eq_true.mp hall c (Text.mem_blanks_of_isBlank hc)
  rw [h] at hword
  contradiction

theorem leadsWord_of_opensWord {text : String} {front line rest tail : List Char}
    (htext : text.toList = front ++ (line ++ tail)) (hfront : ∀ c ∈ front, Text.isBlank c = true)
    (h : Json.Shaped rest line) (hopens : OpensWord text) :
    LeadsWord (rest ++ tail) text.toList ∧ ∀ u, Json.skipSpace line ≠ '"' :: u := by
  obtain ⟨c, r, hc, hword⟩ := hopens
  have hne : ∀ y, Json.isWordChar y = false → c ≠ y := by
    rintro y hy rfl
    rw [hword] at hy
    contradiction
  obtain ⟨g, s, heq, hg, hs⟩ :=
    exists_append_of_dropWhile htext hfront h hc (isBlank_eq_false_of_isWordChar hword)
  have hquote : ∀ u, Json.skipSpace line ≠ '"' :: u := by
    intro u hu
    exact hne '"' (by decide) (List.cons.inj (hs.symm.trans hu)).1
  refine ⟨?_, hquote⟩
  cases h with
  | brackets hs' hx =>
    obtain ⟨rfl, -⟩ := List.cons.inj (hs'.symm.trans hs)
    rcases hx with rfl | rfl
    . exact absurd rfl (hne '[' (by decide))
    . exact absurd rfl (hne '\x7b' (by decide))
  | string hs' => exact absurd hs' (hquote _)
  | word hs' hw => exact ⟨g, _, by rw [heq, hs', List.append_assoc], hg, hw⟩

theorem inputCandidates_eq {bytes : List UInt8} {text : String}
    (h : Text.ofUtf8? bytes = some text) :
    inputCandidates bytes = match Document.candidates text with
      | .ok ds => .ok ds
      | .error _ => (Document.jsonLines text).mapError .input := by
  unfold inputCandidates
  rw [looksCompressed_eq_false h, h]
  rfl

theorem candidates_eq_of_jsonl {files : Files} {name : String} {bytes : List UInt8} {text : String}
    {ds : List Data} (hname : ".jsonl".toList <:+ name.toList) (hfile : files name = .file bytes)
    (htext : Text.ofUtf8? bytes = some text) (hds : Document.jsonLines text = .ok ds) :
    candidates files name = .ok ds := by
  unfold candidates readText
  rw [isCompressed_of_jsonl hname, isJsonLines_of_jsonl hname, hfile]
  change ((orElse _ (Text.ofUtf8? bytes)).bind fun text =>
    (Document.jsonLines text).mapError _) = _
  rw [htext]
  change (Document.jsonLines text).mapError _ = _
  rw [hds]
  rfl

theorem exists_candidates_eq_error {text : String} {i : Nat}
    (h : Yaml.documents text = .error i) : ∃ e, Document.candidates text = .error e := by
  unfold Document.candidates Document.values
  rw [h]
  split
  . exact ⟨_, rfl⟩
  . exact ⟨_, rfl⟩

theorem exists_string_of_candidates_eq_ok {text : String} {rest : List Char} {ds : List Data}
    (h : LeadsWord rest text.toList) (hrest : Continues rest)
    (hds : Document.candidates text = .ok ds) : ∃ s ds', ds = .string s :: ds' := by
  obtain ⟨vs, hvs, rfl⟩ := Outcome.map_eq_ok_iff.mp hds
  unfold Document.values at hvs
  split at hvs
  . contradiction
  . rw [Outcome.mapError_eq_ok_iff] at hvs
    obtain ⟨s, vs', rfl⟩ := Yaml.exists_string_of_documents_eq_ok h hrest hvs
    exact ⟨s, vs'.map Data.ofYaml, rfl⟩

theorem exists_map_some {α β : Type} {f : α → Option β} {as : List α}
    (h : ∀ a ∈ as, (f a).isSome) : ∃ bs : List β, as.map f = bs.map some := by
  induction as with
  | nil => exact ⟨[], rfl⟩
  | cons a as ih =>
    rw [List.forall_mem_cons] at h
    obtain ⟨b, hb⟩ := Option.isSome_iff_exists.mp h.1
    obtain ⟨bs, hbs⟩ := ih h.2
    exact ⟨b :: bs, by rw [List.map_cons, List.map_cons, hb, hbs]⟩

theorem inputCandidates_eq_of_candidates_eq_error {bytes : List UInt8} {text : String}
    {e : Document.Error} {ds : List Data} (htext : Text.ofUtf8? bytes = some text)
    (he : Document.candidates text = .error e) (hds : Document.jsonLines text = .ok ds) :
    inputCandidates bytes = .ok ds := by
  rw [inputCandidates_eq htext, he, hds]
  rfl

section

variable {text : String} {ls lines : List (List Char)} {line : List Char}
  (hcut : Text.Cut text.toList ls) (hls : Document.filled ls = line :: lines)
  (hjson : ∀ l ∈ line :: lines, (Document.candidateOf? l).isSome)

include hcut hls hjson

theorem exists_jsonLines_eq_ok : ∃ ds, Document.jsonLines text = .ok ds
    ∧ (Document.filled ls).map Document.candidateOf? = ds.map some := by
  rw [← hls] at hjson
  obtain ⟨ds, hds⟩ := exists_map_some hjson
  refine ⟨ds, ?_, hds⟩
  rw [Document.jsonLines_eq_ok_iff, ← hcut.eq_lines]
  exact ⟨hls ▸ List.cons_ne_nil line lines, hds⟩

variable (hne : lines ≠ [])

include hne

theorem exists_first_of_filled :
    ∃ front rest tail d, text.toList = front ++ (line ++ tail)
      ∧ (∀ c ∈ front, Text.isBlank c = true) ∧ Json.Shaped rest line ∧ Continues (rest ++ tail)
      ∧ Document.candidateOf? line = some d
      ∧ ∀ s, d = .string s → ∃ u, Json.skipSpace line = '"' :: u := by
  rw [List.forall_mem_cons] at hjson
  obtain ⟨front, tail, heq, hfront, hlater⟩ := exists_append_of_filled hcut hls
  obtain ⟨d, hd⟩ := Option.isSome_iff_exists.mp hjson.1
  obtain ⟨rest, hshaped, hrest, hstring⟩ := exists_shaped_of_candidateOf? hd
  exact ⟨front, rest, tail, d, heq, hfront, hshaped, continues_of_later hlater hne hjson.2 hrest,
    hd, hstring⟩

theorem exists_candidates_eq_error_of_opensNode (hopens : OpensNode text) :
    ∃ e, Document.candidates text = .error e := by
  obtain ⟨front, rest, tail, d, heq, hfront, hshaped, hcontinues, -⟩ :=
    exists_first_of_filled hcut hls hjson hne
  obtain ⟨i, hi⟩ := Yaml.exists_documents_eq_error (leads_of_opensNode heq hfront hshaped hopens)
    hcontinues
  exact exists_candidates_eq_error hi

theorem exists_string_of_opensWord {ds : List Data} (hopens : OpensWord text)
    (hds : Document.candidates text = .ok ds) :
    ∃ s ds', ds = .string s :: ds' ∧ Document.candidateOf? line ≠ some (.string s) := by
  obtain ⟨front, rest, tail, d, heq, hfront, hshaped, hcontinues, hd, hstring⟩ :=
    exists_first_of_filled hcut hls hjson hne
  obtain ⟨hleads, hquote⟩ := leadsWord_of_opensWord heq hfront hshaped hopens
  obtain ⟨s, ds', rfl⟩ := exists_string_of_candidates_eq_ok hleads hcontinues hds
  refine ⟨s, ds', rfl, ?_⟩
  intro hline
  rw [hd] at hline
  obtain ⟨u, hu⟩ := hstring s (Option.some.inj hline)
  exact hquote u hu

end

/--
Of a text of several lines of JSON, a file of JSON Lines has one candidate for each line that is not
blank, in order. On standard input the text has the same candidates if it is not YAML, and those
of its documents if it is. With nothing but spaces, tabs and ends of lines before the first line, it
is not YAML if this line is a string, an array or an object; if it is a number or one of the words
for null and the truth values, the candidates are the same only if the text is not YAML.
-/
theorem inputCandidates_of_jsonLines {bytes : List UInt8} {text : String} {ls : List (List Char)}
    (htext : Text.ofUtf8? bytes = some text) (hcut : Text.Cut text.toList ls)
    (hlength : 2 ≤ (Document.filled ls).length)
    (hjson : ∀ line ∈ Document.filled ls, (Document.candidateOf? line).isSome) :
    ∃ ds : List Data, (Document.filled ls).map Document.candidateOf? = ds.map some
      ∧ (∀ files name, ".jsonl".toList <:+ name.toList → files name = .file bytes →
        candidates files name = .ok ds)
      ∧ (∀ ds', Document.candidates text = .ok ds' → inputCandidates bytes = .ok ds')
      ∧ (∀ e, Document.candidates text = .error e → inputCandidates bytes = .ok ds)
      ∧ (OpensNode text → inputCandidates bytes = .ok ds)
      ∧ (OpensWord text → inputCandidates bytes = .ok ds →
        ∃ e, Document.candidates text = .error e) := by
  obtain ⟨line, lines, hls⟩ : ∃ line lines, Document.filled ls = line :: lines := by
    apply List.exists_cons_of_length_pos
    omega
  rw [hls] at hlength hjson
  have hne : lines ≠ [] := by
    rintro rfl
    contradiction
  obtain ⟨ds, hlines, hds⟩ := exists_jsonLines_eq_ok hcut hls hjson
  have hok : ∀ ds', Document.candidates text = .ok ds' → inputCandidates bytes = .ok ds' := by
    intro ds' hds'
    rw [inputCandidates_eq htext, hds']
  have herror : ∀ e, Document.candidates text = .error e → inputCandidates bytes = .ok ds := by
    intro e he
    exact inputCandidates_eq_of_candidates_eq_error htext he hlines
  refine ⟨ds, hds, ?_, hok, herror, ?_, ?_⟩
  . intro files name hname hfile
    exact candidates_eq_of_jsonl hname hfile htext hlines
  . intro hopens
    obtain ⟨e, he⟩ := exists_candidates_eq_error_of_opensNode hcut hls hjson hne hopens
    exact herror e he
  . intro hopens hinput
    cases hcandidates : Document.candidates text with
    | error e => exact ⟨e, rfl⟩
    | ok ds' =>
      obtain ⟨s, ds'', rfl, hline⟩ :=
        exists_string_of_opensWord hcut hls hjson hne hopens hcandidates
      rw [hok _ hcandidates] at hinput
      cases hinput
      rw [hls, List.map_cons, List.map_cons] at hds
      exact absurd (List.cons.inj hds).1 hline

theorem inputCandidates_of_jsonLines_array_first :
    Text.ofUtf8? [0x5B, 0x31, 0x5D, 0x0A, 0x0A, 0x22, 0x3A, 0x22] = some "[1]\n\n\":\""
      ∧ Text.Cut "[1]\n\n\":\"".toList ["[1]".toList, [], "\":\"".toList]
      ∧ OpensNode "[1]\n\n\":\""
      ∧ inputCandidates [0x5B, 0x31, 0x5D, 0x0A, 0x0A, 0x22, 0x3A, 0x22]
        = candidates (fun _ => .file [0x5B, 0x31, 0x5D, 0x0A, 0x0A, 0x22, 0x3A, 0x22]) "d.jsonl" := by
  have htext : Text.ofUtf8? [0x5B, 0x31, 0x5D, 0x0A, 0x0A, 0x22, 0x3A, 0x22]
      = some "[1]\n\n\":\"" := by decide +kernel
  have hcut : Text.Cut "[1]\n\n\":\"".toList ["[1]".toList, [], "\":\"".toList] := by
    apply @Text.Cut.line "[1]".toList _ _ (by decide)
    apply @Text.Cut.line [] _ _ (by decide)
    exact .last (by decide) (by decide)
  have hopens : OpensNode "[1]\n\n\":\"" := ⟨'[', "1]\n\n\":\"".toList, by decide, .inl rfl⟩
  obtain ⟨ds, -, hfile, -, -, hinput, -⟩ :=
    inputCandidates_of_jsonLines htext hcut (by decide) (by decide +kernel)
  refine ⟨htext, hcut, hopens, ?_⟩
  rw [hinput hopens, hfile _ "d.jsonl" ⟨['d'], by decide⟩ rfl]

theorem inputCandidates_ne_candidates :
    Text.ofUtf8? [0x31, 0x0A, 0x32] = some "1\n2" ∧ Text.Cut "1\n2".toList [['1'], ['2']]
      ∧ (∀ line ∈ Document.filled [['1'], ['2']], (Document.candidateOf? line).isSome)
      ∧ (candidates (fun _ => .file [0x31, 0x0A, 0x32]) "d.jsonl").toOption.map List.length = some 2
      ∧ (inputCandidates [0x31, 0x0A, 0x32]).toOption.map List.length = some 1 := by
  refine ⟨by decide +kernel, ?_, by decide +kernel, by decide +kernel, by decide +kernel⟩
  apply @Text.Cut.line ['1'] _ _ (by decide)
  exact .last (by decide) (by decide)

end Source

end TemplateCheck
