import TemplateCheck.Proofs.Validator.Verdict
import TemplateCheck.Session

/-!
This module contains what a session answers, told from the list of the templates that were loaded
so far, and the proof that the validator of a session answers just that: it only ever puts compiled
paths behind those it has, and its verdicts are those of the paths that it has.
-/

namespace TemplateCheck

namespace Session

variable (settings : Settings)

/--
The templates that a step loads. A text that cannot be read loads none, and nothing that is done to
a copy loads any.
-/
def Step.loads : Step → List Template
  | .load t => [t]
  | .loadAll ts => ts
  | .loadText text => (Document.templates settings.wildcard text).toOption.getD []
  | .listPaths | .validate _ | .validateText _ | .validateOne _ | .fork _ => []

mutual

def Step.fits : Step → Bool
  | .fork steps => Step.allFit steps
  | step => (step.loads settings).all Template.positionsFit

def Step.allFit : List Step → Bool
  | [] => true
  | step :: steps => step.fits && Step.allFit steps

end

namespace Ledger

def paths (ts : List Template) : List String :=
  ts.flatMap fun t => (Compile.compile settings.compileOptions t).paths

def leafCount (ts : List Template) : Nat :=
  ts.foldr (fun t n => t.leafCount + n) 0

def selects (expression : String) (d : Data) : Bool :=
  match Path.parse expression with
  | .ok path => path.selectsAny d
  | .error _ => false

def accepts (ts : List Template) (d : Data) : Bool :=
  if settings.strict then (paths settings ts).all (selects · d)
  else (paths settings ts).any (selects · d)

mutual

def answer (ts : List Template) : Step → Answer Unit
  | .load t => .added t.leafCount (leafCount (ts ++ [t])) ()
  | .loadAll us => .added (leafCount us) (leafCount (ts ++ us)) ()
  | .loadText text =>
    match Document.templates settings.wildcard text with
    | .ok us => .added (leafCount us) (leafCount (ts ++ us)) ()
    | .error e => .unreadable e (leafCount ts) ()
  | .listPaths => .paths (paths settings ts) (leafCount ts) ()
  | .validate ds => .verdicts (ds.map (accepts settings ts)) (leafCount ts) ()
  | .validateText text =>
    match Document.candidates text with
    | .ok ds => .verdicts (ds.map (accepts settings ts)) (leafCount ts) ()
    | .error e => .unreadable e (leafCount ts) ()
  | .validateOne d => .verdict (accepts settings ts d) (leafCount ts) ()
  | .fork steps => .forked (answers ts steps) (leafCount ts) ()

def answers (ts : List Template) : List Step → List (Answer Unit)
  | [] => []
  | step :: steps => answer ts step :: answers (ts ++ step.loads settings) steps

end

variable {ts us : List Template}

theorem paths_loadAll_eq (ts : List Template) :
    (settings.validator.loadAll ts).paths = paths settings ts := by
  rw [Validator.loadAll_eq]
  rfl

theorem length_paths (ts : List Template) : (paths settings ts).length = leafCount ts := by
  unfold paths leafCount
  induction ts with
  | nil => rfl
  | cons t ts ih =>
    rw [List.flatMap_cons, List.length_append, ih, List.foldr_cons, Compile.length_paths]

theorem leafCount_append (ts us : List Template) :
    leafCount (ts ++ us) = leafCount ts + leafCount us := by
  unfold leafCount
  induction ts with
  | nil => rw [List.nil_append, List.foldr_nil, Nat.zero_add]
  | cons t ts ih => rw [List.cons_append, List.foldr_cons, List.foldr_cons, ih, Nat.add_assoc]

theorem paths_append (ts us : List Template) :
    paths settings (ts ++ us) = paths settings ts ++ paths settings us := by
  unfold paths
  rw [List.flatMap_append]

theorem map_selects_paths (hts : ∀ t ∈ ts, t.positionsFit = true) (d : Data) :
    (paths settings ts).map (selects · d)
      = (ts.flatMap Template.leaves).map fun l => (Path.ofLeaf l).selectsAny d := by
  rw [← paths_loadAll_eq, Validator.paths_loadAll rfl, List.map_map]
  apply List.map_congr_left
  intro l hl
  obtain ⟨t, ht, hl⟩ := List.mem_flatMap.mp hl
  unfold selects
  rw [Function.comp_apply, Compile.parse_leafText _ (hts t ht) hl]

theorem validateOne_eq (hts : ∀ t ∈ ts, t.positionsFit = true) (d : Data) :
    ((settings.validator.loadAll ts).validateOne Matcher.byPath d).run.run ()
      = (.ok (accepts settings ts d), ()) := by
  have hmap := map_selects_paths settings hts d
  have hall := congrArg (List.all · id) hmap
  have hany := congrArg (List.any · id) hmap
  simp only [List.all_map, List.any_map, Function.id_comp] at hall hany
  unfold accepts
  rw [Validator.validateOne_loadAll rfl hts]
  change (Except.ok (if settings.strict = true then _ else _), ()) = _
  rw [hall, hany]

end Ledger

open Ledger

theorem Stage.check_eq {α : Type} {c : Validator.Check Unit α} {x : α}
    (hc : c.run.run () = (.ok x, ())) (answer : α → Nat → Unit → Answer Unit) (v : Validator) :
    Stage.check c answer ⟨v, ()⟩ = (answer x v.paths.length (), ⟨v, ()⟩) := by
  unfold Stage.check
  rw [hc]

theorem Stage.load_eq (settings : Settings) (ts us : List Template) :
    Stage.load us ⟨settings.validator.loadAll ts, ()⟩
      = (.added (leafCount us) (leafCount (ts ++ us)) (),
        ⟨settings.validator.loadAll (ts ++ us), ()⟩) := by
  unfold Stage.load
  dsimp only
  rw [← Validator.loadAll_append, paths_loadAll_eq, paths_loadAll_eq, length_paths, length_paths]
  rw [leafCount_append, Nat.add_sub_cancel_left]

theorem validate_eq {settings : Settings} {ts : List Template}
    (hts : ∀ t ∈ ts, t.positionsFit = true) (ds : List Data) :
    validate Matcher.byPath ds ⟨settings.validator.loadAll ts, ()⟩
      = (.verdicts (ds.map (accepts settings ts)) (leafCount ts) (),
        ⟨settings.validator.loadAll ts, ()⟩) := by
  have hvalidate := Validator.validate_of_validateOne (validateOne_eq settings hts) ds
  unfold validate
  rw [Stage.check_eq hvalidate, paths_loadAll_eq, length_paths]

theorem Step.forall_mem_loads {settings : Settings} {step : Step}
    (h : step.fits settings = true) : ∀ t ∈ step.loads settings, t.positionsFit = true := by
  cases step with
  | fork steps => exact nofun
  | _ => exact List.all_eq_true.mp h

mutual

theorem runStep_eq {settings : Settings} {ts : List Template}
    (hts : ∀ t ∈ ts, t.positionsFit = true) {step : Step} (hstep : step.fits settings = true) :
    runStep settings Matcher.byPath ⟨settings.validator.loadAll ts, ()⟩ step
      = (answer settings ts step,
        ⟨settings.validator.loadAll (ts ++ step.loads settings), ()⟩) := by
  cases step with
  | load t =>
    rw [runStep, answer, Stage.load_eq]
    rfl
  | loadAll us => exact Stage.load_eq settings ts us
  | loadText text =>
    rw [runStep, answer, Step.loads]
    cases hread : Document.templates settings.wildcard text with
    | error e =>
      change _ = (_, (⟨settings.validator.loadAll (ts ++ []), ()⟩ : Stage Unit))
      rw [Stage.reading, paths_loadAll_eq, length_paths, List.append_nil]
    | ok us => exact Stage.load_eq settings ts us
  | listPaths =>
    rw [runStep, answer, Step.loads, List.append_nil, paths_loadAll_eq, length_paths]
  | validate ds =>
    rw [runStep, answer, Step.loads, List.append_nil, validate_eq hts]
  | validateText text =>
    rw [runStep, answer, Step.loads, List.append_nil]
    cases hread : Document.candidates text with
    | error e => rw [Stage.reading, paths_loadAll_eq, length_paths]
    | ok ds => exact validate_eq hts ds
  | validateOne d =>
    rw [runStep, answer, Step.loads, List.append_nil]
    rw [Stage.check_eq (validateOne_eq settings hts d), paths_loadAll_eq, length_paths]
  | fork steps =>
    -- the copy has the same templates, and what it loads is forgotten with it
    rw [runStep, answer, Step.loads, List.append_nil, paths_loadAll_eq, length_paths]
    rw [runSteps_eq hts hstep]

theorem runSteps_eq {settings : Settings} {ts : List Template}
    (hts : ∀ t ∈ ts, t.positionsFit = true) {steps : List Step}
    (hsteps : Step.allFit settings steps = true) :
    runSteps settings Matcher.byPath ⟨settings.validator.loadAll ts, ()⟩ steps
      = (answers settings ts steps, ()) := by
  cases steps with
  | nil => rfl
  | cons step steps =>
    unfold Step.allFit at hsteps
    rw [Bool.and_eq_true] at hsteps
    have hts' : ∀ t ∈ ts ++ step.loads settings, t.positionsFit = true := by
      rw [List.forall_mem_append]
      exact ⟨hts, Step.forall_mem_loads hsteps.1⟩
    rw [runSteps, answers, runStep_eq hts hsteps.1]
    dsimp only
    rw [runSteps_eq hts' hsteps.2]

end

theorem accepts_append {settings : Settings} (ts us : List Template) (d : Data) :
    if settings.strict then accepts settings (ts ++ us) d = true → accepts settings ts d = true
      else accepts settings ts d = true → accepts settings (ts ++ us) d = true := by
  unfold accepts
  rw [paths_append]
  cases settings.strict with
  | true =>
    simp only [if_true]
    rw [List.all_append, Bool.and_eq_true]
    exact And.left
  | false =>
    simp only [Bool.false_eq_true, if_false]
    rw [List.any_append, Bool.or_eq_true]
    exact .inl

theorem accepts_perm (settings : Settings) {ts us : List Template} (h : us.Perm ts) (d : Data) :
    accepts settings us d = accepts settings ts d := by
  have hpaths : (paths settings us).Perm (paths settings ts) := h.flatMap_right _
  unfold accepts
  rw [hpaths.all_eq, hpaths.any_eq]

/--
A session answers what its ledger says. So the validator of a session only ever grows, by the paths
of the templates that are loaded; further templates can turn a loose verdict only to acceptance and
a strict one only to rejection; and the order in which templates are loaded has no influence on
verdicts.
-/
theorem run_byPath_eq_answers (settings : Settings) :
    (∀ steps, Step.allFit settings steps = true →
        run settings Matcher.byPath () steps = answers settings [] steps)
      ∧ ∀ ts, (∀ t ∈ ts, t.positionsFit = true) →
        (∀ us, (∀ t ∈ us, t.positionsFit = true) → ∀ d, ∃ before after,
            ((settings.validator.loadAll ts).validateOne Matcher.byPath d).run.run ()
              = (.ok before, ())
            ∧ ((settings.validator.loadAll (ts ++ us)).validateOne Matcher.byPath d).run.run ()
              = (.ok after, ())
            ∧ if settings.strict then after = true → before = true
              else before = true → after = true)
        ∧ ∀ us, us.Perm ts → ∀ d,
            ((settings.validator.loadAll us).validateOne Matcher.byPath d).run.run ()
              = ((settings.validator.loadAll ts).validateOne Matcher.byPath d).run.run () := by
  constructor
  . intro steps hsteps
    unfold run
    rw [show settings.validator = settings.validator.loadAll [] from rfl]
    rw [runSteps_eq (List.forall_mem_nil _) hsteps]
  . intro ts hts
    constructor
    . intro us hus d
      have hall : ∀ t ∈ ts ++ us, t.positionsFit = true := by
        rw [List.forall_mem_append]
        exact ⟨hts, hus⟩
      exact ⟨_, _, validateOne_eq settings hts d, validateOne_eq settings hall d,
        accepts_append ts us d⟩
    . intro us hperm d
      have hus : ∀ t ∈ us, t.positionsFit = true := by
        intro t ht
        exact hts t (hperm.subset ht)
      rw [validateOne_eq settings hus, validateOne_eq settings hts, accepts_perm settings hperm]

theorem run_byPath_eq_answers_forked :
    run {} Matcher.byPath () [.load (.mapping [("a", .scalar "5")]), .loadText " ",
        .fork [.loadAll [.wildcard, .scalar "x"], .validateOne (.string "x")], .listPaths,
        .validate [.string "x", .mapping [("a", .string "5.0")]]]
      = [.added 1 1 (), .unreadable .noDocuments 1 (),
        .forked [.added 2 3 (), .verdict true 3 ()] 1 (), .paths ["//a/*[ value == 5 ]"] 1 (),
        .verdicts [false, true] 1 ()]
      ∧ (∃ before after,
          ((({} : Settings).validator.loadAll [.scalar "x"]).validateOne Matcher.byPath
            (.string "y")).run.run () = (.ok before, ())
          ∧ ((({} : Settings).validator.loadAll ([.scalar "x"] ++ [.wildcard])).validateOne
            Matcher.byPath (.string "y")).run.run () = (.ok after, ())
          ∧ (before = true → after = true))
      ∧ ((({} : Settings).validator.loadAll [.wildcard, .scalar "x"]).validateOne
          Matcher.byPath (.string "y")).run.run ()
        = ((({} : Settings).validator.loadAll [.scalar "x", .wildcard]).validateOne
          Matcher.byPath (.string "y")).run.run () := by
  have hpaths : paths {} [.mapping [("a", .scalar "5")]] = ["//a/*[ value == 5 ]"] := by
    decide +kernel
  have hcopy : accepts {} [.mapping [("a", .scalar "5")], .wildcard, .scalar "x"] (.string "x")
      = true := by
    decide +kernel
  have hfirst : accepts {} [.mapping [("a", .scalar "5")]] (.string "x") = false := by
    decide +kernel
  have hsecond : accepts {} [.mapping [("a", .scalar "5")]] (.mapping [("a", .string "5.0")])
      = true := by
    decide +kernel
  refine ⟨?_, ?_, ?_⟩
  . rw [(run_byPath_eq_answers {}).1 _ rfl]
    change [_, _, Answer.forked [_, .verdict (accepts {} [_, _, _] _) _ _] _ _,
      .paths (paths {} [_]) _ _, .verdicts [accepts {} [_] _, accepts {} [_] _] _ _] = _
    rw [hcopy, hpaths, hfirst, hsecond]
    rfl
  . exact ((run_byPath_eq_answers {}).2 [.scalar "x"] (by decide)).1 [.wildcard] (by decide)
      (.string "y")
  . exact ((run_byPath_eq_answers {}).2 [.scalar "x", .wildcard] (by decide)).2
      [.wildcard, .scalar "x"] (List.Perm.swap _ _ _) (.string "y")

end Session

end TemplateCheck
