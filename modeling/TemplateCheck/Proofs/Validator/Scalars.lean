import TemplateCheck.Proofs.Decimal.Overflow
import TemplateCheck.Proofs.Path.Agree
import TemplateCheck.Proofs.Validator.Verdict

/-!
This module contains what the path of a template that is a scalar accepts: the texts of one class of
an equivalence. The numerals of a sign that lie beyond the largest finite value are all one class.
-/

namespace TemplateCheck

def Selector.keepsScalar : Selector → Bool
  | .key _ => false
  | .anyChild | .current => true

def Step.staysAt (step : Step) (l : Located) : Bool :=
  step.selector.keepsScalar && step.filter?.all (·.accepts l)

section Scalar

variable {d : Data} (hd : d.isScalar = true)

include hd

theorem Axis.context_root_of_isScalar (axis : Axis) : axis.context [.root d] = [.root d] := by
  cases axis with
  | child => rfl
  | descendantOrSelf =>
    cases d with
    | sequence items => contradiction
    | mapping entries => contradiction
    | _ => rfl

theorem Selector.pick_root_of_isScalar (selector : Selector) :
    selector.pick (.root d) = if selector.keepsScalar then [.root d] else [] := by
  cases selector with
  | current => rfl
  | _ =>
    cases d with
    | sequence items => contradiction
    | mapping entries => contradiction
    | _ => rfl

theorem Step.apply_root_of_isScalar (step : Step) :
    step.apply [.root d] = [Located.root d].filter step.staysAt := by
  unfold Step.apply Step.staysAt
  rw [step.axis.context_root_of_isScalar hd, List.flatMap_singleton]
  rw [step.selector.pick_root_of_isScalar hd]
  cases step.selector.keepsScalar with
  | false => rfl
  | true => rfl

end Scalar

namespace Path

theorem foldl_apply_nil (path : Path) : path.foldl (fun ls step => step.apply ls) [] = [] := by
  induction path with
  | nil => rfl
  | cons step path ih =>
    have happly : step.apply [] = [] := by
      unfold Step.apply Axis.context
      cases step.axis with
      | child => rfl
      | descendantOrSelf => rfl
    rw [List.foldl_cons, happly]
    exact ih

theorem select_of_isScalar (path : Path) {d : Data} (hd : d.isScalar = true) :
    path.select d = [Located.root d].filter fun l => path.all (·.staysAt l) := by
  unfold select
  induction path with
  | nil => rfl
  | cons step path ih =>
    rw [List.foldl_cons, step.apply_root_of_isScalar hd, List.filter_singleton]
    rw [List.filter_singleton, List.all_cons]
    cases step.staysAt (.root d) with
    | false => exact foldl_apply_nil path
    | true =>
      rw [List.filter_singleton] at ih
      exact ih

theorem selectsAny_of_isScalar (path : Path) {d : Data} (hd : d.isScalar = true) :
    path.selectsAny d = path.all (·.staysAt (.root d)) := by
  unfold selectsAny
  rw [select_of_isScalar path hd, List.filter_singleton]
  cases path.all (·.staysAt (.root d)) with
  | false => rfl
  | true => rfl

theorem selectsAny_congr_of_text? (path : Path) {d d' : Data} {s : String}
    (hd : d.text? = some s) (hd' : d'.text? = some s) : path.selectsAny d = path.selectsAny d' := by
  have haccepts : ∀ filter : Filter, filter.accepts (.root d) = filter.accepts (.root d') := by
    intro filter
    unfold Filter.accepts Located.root
    dsimp only
    rw [hd, hd']
  rw [selectsAny_of_isScalar path (Data.isScalar_of_text?_eq_some hd)]
  rw [selectsAny_of_isScalar path (Data.isScalar_of_text?_eq_some hd')]
  unfold Step.staysAt
  simp only [haccepts]

theorem comparison_eq_iff {s : List Char} :
    comparison s = '=' :: '=' :: ' ' :: s ↔ ∃ n, Numeral.read? s = some n := by
  rw [← looksLikeNumber_iff]
  unfold comparison
  cases looksLikeNumber s with
  | false => simp
  | true => simp

end Path

theorem Numeral.isFinite_value_iff (n : Numeral) : n.value.isFinite = true ↔ ¬n.Overflows := by
  have hinfinite := n.value_eq_infinite_iff
  cases hv : n.value with
  | nan => exact absurd hv (Binary64.ofDecimal_ne_nan _ _ _)
  | infinite s =>
    have hoverflows := ((hinfinite s).mp hv).2
    simp [Binary64.isFinite, hoverflows]
  | finite s m e =>
    have hoverflows : ¬n.Overflows := by
      intro h
      rw [(hinfinite n.negative).mpr ⟨rfl, h⟩] at hv
      contradiction
    simp [Binary64.isFinite, hoverflows]

theorem Matcher.byPath_congr_of_text? (e : String) {d d' : Data} {s : String}
    (hd : d.text? = some s) (hd' : d'.text? = some s) :
    Matcher.byPath e d () = Matcher.byPath e d' () := by
  cases hparse : Path.parse e with
  | error cause => rw [byPath_of_parse_eq_error hparse, byPath_of_parse_eq_error hparse]
  | ok path =>
    rw [byPath_of_parse hparse, byPath_of_parse hparse, path.selectsAny_congr_of_text? hd hd']

namespace Compile

def Accepts (options : Options) (a : String) (d : Data) : Prop :=
  ∃ e, (compile options (.scalar a)).paths = [e] ∧ Matcher.byPath e d () = (.ok true, ())

theorem exists_paths_scalar_eq (options : Options) (a : String) :
    ∃ e, (compile options (.scalar a)).paths = [e]
      ∧ ∀ d, ∃ verdict, Matcher.byPath e d () = (.ok verdict, ())
        ∧ (d.isScalar = true → (verdict = true ↔ d.Agrees a)) := by
  refine ⟨leafText options "/" .root ([], .scalar a), compile_paths_eq options (.scalar a), ?_⟩
  intro d
  refine ⟨(Path.ofLeaf ([], .scalar a)).selectsAny d, ?_, ?_⟩
  . exact Matcher.byPath_of_parse (parse_leafText options (t := .scalar a) rfl List.mem_cons_self) d
  . intro hd
    exact Path.selectsAny_ofLeaf_root_iff (Data.keysDistinct_of_isScalar hd) a

theorem accepts_iff_agrees (options : Options) (a : String) {d : Data} (hd : d.isScalar = true) :
    Accepts options a d ↔ d.Agrees a := by
  obtain ⟨e, hpaths, hverdict⟩ := exists_paths_scalar_eq options a
  obtain ⟨verdict, hrun, hagrees⟩ := hverdict d
  rw [← hagrees hd]
  unfold Accepts
  rw [hpaths]
  constructor
  . intro ⟨e', he, htrue⟩
    cases he
    rw [hrun, Prod.mk.injEq, Except.ok.injEq] at htrue
    exact htrue.1
  . intro htrue
    rw [htrue] at hrun
    exact ⟨e, rfl, hrun⟩

/--
The texts that a scalar accepts are those of its class in an equivalence. Every scalar path comes to
a verdict, and no path tells scalars of the same text apart.
-/
theorem equivalence_accepts (options : Options) :
    (∀ a, ∃ e, (compile options (.scalar a)).paths = [e]
        ∧ ∀ d, ∃ verdict, Matcher.byPath e d () = (.ok verdict, ()))
      ∧ Equivalence (fun a b => Accepts options a (.string b))
      ∧ ∀ (e : String) (d d' : Data) (s : String), d.text? = some s → d'.text? = some s →
        Matcher.byPath e d () = Matcher.byPath e d' () := by
  refine ⟨?_, ⟨?_, ?_, ?_⟩, ?_⟩
  . intro a
    obtain ⟨e, hpaths, hverdict⟩ := exists_paths_scalar_eq options a
    refine ⟨e, hpaths, ?_⟩
    intro d
    obtain ⟨verdict, hrun, _⟩ := hverdict d
    exact ⟨verdict, hrun⟩
  . intro a
    rw [accepts_iff_agrees options a rfl]
    exact Data.agrees_of_text?_eq rfl
  . intro a b hab
    rw [accepts_iff_agrees options _ rfl] at hab ⊢
    exact hab.symm
  . intro a b c hab hbc
    rw [accepts_iff_agrees options _ rfl] at hab hbc ⊢
    exact hab.trans hbc
  . intro e d d' s hd hd'
    exact Matcher.byPath_congr_of_text? e hd hd'

theorem equivalence_accepts_exponents :
    Accepts {} "1e1" (.string "10.0") ∧ Accepts {} "10.0" (.string "1e1")
      ∧ Accepts {} "1e1" (.number (.integer 10)) := by
  have hten : ∀ b : String, Path.looksLikeNumber b.toList = true →
      Binary64.read? b.toList = some (.ofInt 10) → Accepts {} "1e1" (.string b) := by
    intro b hlooks hread
    rw [accepts_iff_agrees {} "1e1" rfl, Data.agrees_string_iff]
    exact .inl ⟨by rfl, hlooks, .ofInt 10, .ofInt 10, by rfl, hread, by rfl⟩
  have h := equivalence_accepts {}
  refine ⟨hten "10.0" rfl rfl, h.2.1.symm (hten "10.0" rfl rfl), ?_⟩
  obtain ⟨e, hpaths, hrun⟩ := hten "10" rfl rfl
  rw [← h.2.2 e (.number (.integer 10)) (.string "10") "10" rfl rfl] at hrun
  exact ⟨e, hpaths, hrun⟩

/--
Which comparisons are numerical, and what becomes of those with a value that is not finite. A text
is compared as a number if it is a decimal numeral, and this includes those beyond the largest
finite value. Two such texts match if they are the same, and as numerals also if only their signs
are the same.
-/
theorem comparison_eq_iff_and_byPath_infinite_iff (options : Options) :
    (∀ s : String, Path.comparison s.toList = "== ".toList ++ s.toList
        ↔ ∃ n, Numeral.read? s.toList = some n)
      ∧ (∀ (s : String) (n : Numeral), Numeral.read? s.toList = some n →
        Binary64.read? s.toList = some n.value ∧ (n.value.isFinite = true ↔ ¬n.Overflows))
      ∧ ∀ (a b : String) (s t : Bool), Binary64.read? a.toList = some (.infinite s) →
        Binary64.read? b.toList = some (.infinite t) →
        ∃ e verdict, (compile options (.scalar a)).paths = [e]
          ∧ Matcher.byPath e (.string b) () = (.ok verdict, ())
          ∧ (verdict = true ↔ a = b ∨ (s = t ∧ (∃ n, Numeral.read? a.toList = some n)
            ∧ ∃ n, Numeral.read? b.toList = some n)) := by
  refine ⟨?_, ?_, ?_⟩
  . intro s
    exact Path.comparison_eq_iff
  . intro s n hn
    exact ⟨Binary64.read?_of_numeral hn, n.isFinite_value_iff⟩
  . intro a b s t ha hb
    obtain ⟨e, hpaths, hverdict⟩ := exists_paths_scalar_eq options a
    obtain ⟨verdict, hrun, hagrees⟩ := hverdict (.string b)
    refine ⟨e, verdict, hpaths, hrun, ?_⟩
    rw [hagrees rfl, Data.agrees_string_iff_of_infinite ha hb]

theorem comparison_eq_iff_and_byPath_infinite_iff_word :
    Path.comparison "1e308".toList = "== 1e308".toList
      ∧ ((Binary64.ofDecimal false 1 308).isFinite = true
        ↔ ¬(⟨false, 1, 308⟩ : Numeral).Overflows)
      ∧ (∃ e, (compile {} (.scalar "inf")).paths = [e]
        ∧ Matcher.byPath e (.string "1e309") () = (.ok false, ())) := by
  have h := comparison_eq_iff_and_byPath_infinite_iff {}
  have hnumeral : Numeral.read? "1e308".toList = some ⟨false, 1, 308⟩ := by rfl
  refine ⟨(h.1 "1e308").mpr ⟨_, hnumeral⟩, (h.2.1 "1e308" _ hnumeral).2, ?_⟩
  obtain ⟨e, verdict, hpaths, hrun, hverdict⟩ :=
    h.2.2 "inf" "1e309" false false rfl (by decide +kernel)
  have hfalse : verdict = false := by
    rw [← Bool.not_eq_true, hverdict]
    intro hmatch
    rcases hmatch with heq | ⟨_, ⟨n, hn⟩, _⟩
    . contradiction
    . contradiction
  rw [hfalse] at hrun
  exact ⟨e, hpaths, hrun⟩

theorem accepts_infinite_of_ne :
    Path.comparison "1e400".toList = "== 1e400".toList
      ∧ Binary64.read? "1e400".toList = some (.infinite false)
      ∧ Binary64.read? "1e999".toList = some (.infinite false) ∧ "1e400" ≠ "1e999"
      ∧ Accepts {} "1e400" (.string "1e999") := by
  have hleft : Binary64.read? "1e400".toList = some (.infinite false) := by decide +kernel
  have hright : Binary64.read? "1e999".toList = some (.infinite false) := by decide +kernel
  refine ⟨by decide +kernel, hleft, hright, by decide, ?_⟩
  rw [accepts_iff_agrees {} "1e400" rfl, Data.agrees_string_iff_of_infinite hleft hright]
  exact .inr ⟨rfl, ⟨⟨false, 1, 400⟩, rfl⟩, ⟨false, 1, 999⟩, rfl⟩

end Compile

end TemplateCheck
