import TemplateCheck.Proofs.Validator.Verdict
import TemplateCheck.Session

/-!
This module contains which calls a validator makes of its matcher, whatever the matcher answers
and remembers: for each candidate in turn the paths in turn, until an answer decides the verdict or
is an error.
-/

namespace TemplateCheck

structure Call where
  expression : String
  candidate : Data
  answer : Except PathError Bool

def Matcher.recording {σ : Type} (m : Matcher σ) : Matcher (σ × List Call) := fun e d s =>
  let (answer, state) := m e d s.1
  (answer, state, s.2 ++ [⟨e, d, answer⟩])

theorem Matcher.recording_of_eq {σ : Type} {m : Matcher σ} {e : String} {d : Data} {s s' : σ}
    {answer : Except PathError Bool} (h : m e d s = (answer, s')) (log : List Call) :
    m.recording e d (s, log) = (answer, s', log ++ [⟨e, d, answer⟩]) := by
  unfold recording
  dsimp only
  rw [h]

namespace Validator

variable {σ : Type} {m : Matcher σ} {strict : Bool} {d : Data}

/--
How a search through expressions goes. In a strict search `true` is the answer that leaves the
verdict open, in a loose one `false` is. The search takes the matcher from one state to another,
makes some calls, and has an outcome.
-/
inductive Search (m : Matcher σ) (strict : Bool) (d : Data) :
    List String → σ → List Call → Except MatchError Bool → σ → Prop where
  | exhausted (s : σ) : Search m strict d [] s [] (.ok strict) s
  | decided {e : String} {es : List String} {s s' : σ} (h : m e d s = (.ok !strict, s')) :
      Search m strict d (e :: es) s [⟨e, d, .ok !strict⟩] (.ok !strict) s'
  | failed {e : String} {es : List String} {s s' : σ} {cause : PathError}
      (h : m e d s = (.error cause, s')) :
      Search m strict d (e :: es) s [⟨e, d, .error cause⟩] (.error ⟨e, cause⟩) s'
  | next {e : String} {es : List String} {s s' s'' : σ} {calls : List Call}
      {outcome : Except MatchError Bool} (h : m e d s = (.ok strict, s'))
      (hrest : Search m strict d es s' calls outcome s'') :
      Search m strict d (e :: es) s (⟨e, d, .ok strict⟩ :: calls) outcome s''

theorem exists_search (m : Matcher σ) (strict : Bool) (d : Data) (es : List String) (s : σ) :
    ∃ calls outcome s', Search m strict d es s calls outcome s' := by
  induction es generalizing s with
  | nil => exact ⟨_, _, _, .exhausted s⟩
  | cons e es ih =>
    rcases hm : m e d s with ⟨answer, s'⟩
    cases answer with
    | error cause => exact ⟨_, _, _, .failed hm⟩
    | ok answer =>
      by_cases hanswer : answer = strict
      . rw [hanswer] at hm
        obtain ⟨calls, outcome, s'', hrest⟩ := ih s'
        exact ⟨_, _, _, .next hm hrest⟩
      . rw [Bool.eq_not.mpr hanswer] at hm
        exact ⟨_, _, _, .decided hm⟩

namespace Search

variable {es : List String} {s s' : σ} {calls : List Call} {outcome : Except MatchError Bool}

theorem run_eq (h : Search m strict d es s calls outcome s') :
    (if strict then allMatch m d es else anyMatch m d es).run.run s = (outcome, s') := by
  cases strict with
  | false =>
    induction h with
    | exhausted s => rfl
    | decided h => exact anyMatch_cons h _
    | failed h => exact anyMatch_cons_of_eq_error h _
    | next h _ ih => exact (anyMatch_cons h _).trans ih
  | true =>
    induction h with
    | exhausted s => rfl
    | decided h => exact allMatch_cons h _
    | failed h => exact allMatch_cons_of_eq_error h _
    | next h _ ih => exact (allMatch_cons h _).trans ih

theorem recording (h : Search m strict d es s calls outcome s') (log : List Call) :
    Search m.recording strict d es (s, log) calls outcome (s', log ++ calls) := by
  induction h generalizing log with
  | exhausted s =>
    rw [List.append_nil]
    exact .exhausted (s, log)
  | decided h => exact .decided (Matcher.recording_of_eq h log)
  | failed h => exact .failed (Matcher.recording_of_eq h log)
  | next h _ ih =>
    rw [List.append_cons]
    exact .next (Matcher.recording_of_eq h log) (ih _)

end Search

/--
Whether calls about one candidate go through expressions as they should: they are about the first
expressions, in their order, all but the last leave the verdict open, and if even the last does then
no expression is left.
-/
structure Searched (strict : Bool) (es : List String) (d : Data) (calls : List Call) : Prop where
  candidate_eq : ∀ c ∈ calls, c.candidate = d
  isPrefix : calls.map Call.expression <+: es
  goes_on : ∀ c ∈ calls.dropLast, c.answer = .ok strict
  exhausts : (∀ c ∈ calls, c.answer = .ok strict) → calls.map Call.expression = es

theorem searched_singleton {e : String} (es : List String) {answer : Except PathError Bool}
    (h : answer ≠ .ok strict) : Searched strict (e :: es) d [⟨e, d, answer⟩] where
  candidate_eq := by simp
  isPrefix := ⟨es, rfl⟩
  goes_on := by simp
  exhausts := by
    intro hopen
    exact absurd (hopen _ List.mem_cons_self) h

theorem Searched.cons {e : String} {es : List String} {calls : List Call}
    (h : Searched strict es d calls) :
    Searched strict (e :: es) d (⟨e, d, .ok strict⟩ :: calls) where
  candidate_eq := by
    rw [List.forall_mem_cons]
    exact ⟨rfl, h.candidate_eq⟩
  isPrefix := by
    rw [List.map_cons, List.cons_prefix_cons]
    exact ⟨rfl, h.isPrefix⟩
  goes_on := by
    cases calls with
    | nil => simp
    | cons c calls =>
      rw [List.dropLast_cons_cons, List.forall_mem_cons]
      exact ⟨rfl, h.goes_on⟩
  exhausts := by
    rw [List.forall_mem_cons, List.map_cons]
    intro hopen
    rw [h.exhausts hopen.2]

def Concluded (strict : Bool) (calls : List Call) : Except MatchError Bool → Prop
  | .ok verdict => (∀ c ∈ calls, ∃ answer, c.answer = .ok answer)
    ∧ (verdict = true
      ↔ if strict then ∀ c ∈ calls, c.answer ≠ .ok false else ∃ c ∈ calls, c.answer = .ok true)
  | .error e => ∃ before c, calls = before ++ [c]
    ∧ (∀ b ∈ before, ∃ answer, b.answer = .ok answer)
    ∧ c.expression = e.expression ∧ c.answer = .error e.cause

theorem Concluded.cons {calls : List Call} {outcome : Except MatchError Bool}
    (h : Concluded strict calls outcome) (e : String) :
    Concluded strict (⟨e, d, .ok strict⟩ :: calls) outcome := by
  cases outcome with
  | ok verdict =>
    obtain ⟨hanswered, hverdict⟩ := h
    refine ⟨List.forall_mem_cons.mpr ⟨⟨strict, rfl⟩, hanswered⟩, ?_⟩
    rw [hverdict]
    cases strict with
    | false => simp
    | true => simp
  | error cause =>
    obtain ⟨before, c, hcalls, hbefore, hc⟩ := h
    refine ⟨⟨e, d, .ok strict⟩ :: before, c, ?_, ?_, hc⟩
    . rw [hcalls]
      rfl
    . exact List.forall_mem_cons.mpr ⟨⟨strict, rfl⟩, hbefore⟩

namespace Search

variable {es : List String} {s s' : σ} {calls : List Call} {outcome : Except MatchError Bool}

theorem searched (h : Search m strict d es s calls outcome s') : Searched strict es d calls := by
  induction h with
  | exhausted s =>
    constructor
    . simp
    . exact List.nil_prefix
    . simp
    . simp
  | decided h => exact searched_singleton _ (by simp)
  | failed h => exact searched_singleton _ (by simp)
  | next h _ ih => exact ih.cons

theorem concluded (h : Search m strict d es s calls outcome s') :
    Concluded strict calls outcome := by
  induction h with
  | exhausted s =>
    refine ⟨by simp, ?_⟩
    cases strict with
    | false => simp
    | true => simp
  | decided h =>
    refine ⟨by simp, ?_⟩
    cases strict with
    | false => simp
    | true => simp
  | failed h => exact ⟨[], _, rfl, by simp, rfl, rfl⟩
  | next h _ ih => exact ih.cons _

end Search

inductive Validation (m : Matcher σ) (v : Validator) :
    List Data → σ → List (List Call) → Except MatchError (List Bool) → σ → Prop where
  | done (s : σ) : Validation m v [] s [] (.ok []) s
  | failed {d : Data} {ds : List Data} {s s' : σ} {calls : List Call} {e : MatchError}
      (h : Search m v.strict d v.paths s calls (.error e) s') :
      Validation m v (d :: ds) s [calls] (.error e) s'
  | next {d : Data} {ds : List Data} {s s' s'' : σ} {calls : List Call} {verdict : Bool}
      {blocks : List (List Call)} {outcome : Except MatchError (List Bool)}
      (h : Search m v.strict d v.paths s calls (.ok verdict) s')
      (hrest : Validation m v ds s' blocks outcome s'') :
      Validation m v (d :: ds) s (calls :: blocks) (outcome.map (verdict :: ·)) s''

theorem exists_validation (m : Matcher σ) (v : Validator) (ds : List Data) (s : σ) :
    ∃ blocks outcome s', Validation m v ds s blocks outcome s' := by
  induction ds generalizing s with
  | nil => exact ⟨_, _, _, .done s⟩
  | cons d ds ih =>
    obtain ⟨calls, outcome, s', h⟩ := exists_search m v.strict d v.paths s
    cases outcome with
    | error e => exact ⟨_, _, _, .failed h⟩
    | ok verdict =>
      obtain ⟨blocks, outcome, s'', hrest⟩ := ih s'
      exact ⟨_, _, _, .next h hrest⟩

namespace Validation

variable {v : Validator} {ds : List Data} {s s' : σ} {blocks : List (List Call)}
  {outcome : Except MatchError (List Bool)}

theorem run_eq (h : Validation m v ds s blocks outcome s') :
    (v.validate m ds).run.run s = (outcome, s') := by
  induction h with
  | done s => rfl
  | failed h => exact validate_cons_of_eq_error h.run_eq _
  | next h _ ih => exact validate_cons h.run_eq ih

theorem recording (h : Validation m v ds s blocks outcome s') (log : List Call) :
    Validation m.recording v ds (s, log) blocks outcome (s', log ++ blocks.flatten) := by
  induction h generalizing log with
  | done s =>
    rw [List.flatten_nil, List.append_nil]
    exact .done (s, log)
  | failed h =>
    rw [List.flatten_singleton]
    exact .failed (h.recording log)
  | next h _ ih =>
    rw [List.flatten_cons, ← List.append_assoc]
    exact .next (h.recording log) (ih _)

theorem forall_searched (h : Validation m v ds s blocks outcome s') :
    List.Forall₂ (Searched v.strict v.paths) (ds.take blocks.length) blocks := by
  induction h with
  | done s => exact .nil
  | failed h => exact .cons h.searched .nil
  | next h _ ih => exact .cons h.searched ih

end Validation

def ConcludedAll (strict : Bool) (ds : List Data) (blocks : List (List Call)) :
    Except MatchError (List Bool) → Prop
  | .ok verdicts => blocks.length = ds.length
    ∧ List.Forall₂ (fun calls verdict => Concluded strict calls (.ok verdict)) blocks verdicts
  | .error e => ∃ before calls, blocks = before ++ [calls]
    ∧ (∀ b ∈ before, ∃ verdict, Concluded strict b (.ok verdict))
    ∧ Concluded strict calls (.error e)

theorem Validation.concludedAll {v : Validator} {ds : List Data} {s s' : σ}
    {blocks : List (List Call)} {outcome : Except MatchError (List Bool)}
    (h : Validation m v ds s blocks outcome s') : ConcludedAll v.strict ds blocks outcome := by
  induction h with
  | done s => exact ⟨rfl, .nil⟩
  | failed h => exact ⟨[], _, rfl, by simp, h.concluded⟩
  | @next _ _ _ _ _ calls verdict _ outcome h _ ih =>
    cases outcome with
    | ok verdicts => exact ⟨congrArg (· + 1) ih.1, .cons h.concluded ih.2⟩
    | error e =>
      obtain ⟨before, last, rfl, hbefore, hlast⟩ := ih
      exact ⟨calls :: before, last, rfl,
        List.forall_mem_cons.mpr ⟨⟨verdict, h.concluded⟩, hbefore⟩, hlast⟩

/--
The calls of a validation, for any matcher. There is a block of calls for each candidate in turn, up
to the first error, and every block is a search through the paths that ends with the first answer
to decide the verdict. The outcome is what the calls say, and the validator is left as it was.
-/
theorem validate_calls (v : Validator) (m : Matcher σ) (ds : List Data) (s : σ) :
    ∃ blocks outcome s', (v.validate m ds).run.run s = (outcome, s')
      ∧ (∀ log, (v.validate m.recording ds).run.run (s, log)
        = (outcome, s', log ++ blocks.flatten))
      ∧ List.Forall₂ (Searched v.strict v.paths) (ds.take blocks.length) blocks
      ∧ ConcludedAll v.strict ds blocks outcome
      ∧ (Session.validate m ds ⟨v, s⟩).2 = ⟨v, s'⟩ := by
  obtain ⟨blocks, outcome, s', h⟩ := exists_validation m v ds s
  refine ⟨blocks, outcome, s', h.run_eq, ?_, h.forall_searched, h.concludedAll, ?_⟩
  . intro log
    exact (h.recording log).run_eq
  . unfold Session.validate Session.Stage.check
    dsimp only
    rw [h.run_eq]

example :
    let script : Matcher (List (Except PathError Bool)) := fun _ _ answers =>
      (answers.headD (.ok false), answers.tail)
    ((⟨{}, false, ["//a", "//b", "//c"]⟩ : Validator).validate script.recording
        [.null, .string "x", .null]).run.run
      ([.ok false, .ok true, .ok false, .error (.unexpectedEnd "a key"), .ok true], [])
      = (.error ⟨"//b", .unexpectedEnd "a key"⟩, [.ok true],
        [⟨"//a", .null, .ok false⟩, ⟨"//b", .null, .ok true⟩, ⟨"//a", .string "x", .ok false⟩,
          ⟨"//b", .string "x", .error (.unexpectedEnd "a key")⟩]) := by
  rfl

end Validator

end TemplateCheck
