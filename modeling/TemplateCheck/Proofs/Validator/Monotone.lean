import TemplateCheck.Proofs.Path.Monotone
import TemplateCheck.Proofs.Validator.Verdict

/-!
This module contains that a validator which accepts a candidate accepts every candidate that
contains it, and that the order of the entries of a candidate has no influence on its verdict.
-/

namespace TemplateCheck

namespace Validator

section Congr

variable {σ : Type} {m : Matcher σ} {d d' : Data}

theorem ask_congr (h : ∀ e, m e d = m e d') (e : String) : ask m e d = ask m e d' := by
  unfold ask
  rw [h]

theorem anyMatch_congr (h : ∀ e, m e d = m e d') (es : List String) :
    anyMatch m d es = anyMatch m d' es := by
  induction es with
  | nil => rfl
  | cons e es ih => rw [anyMatch, anyMatch, ask_congr h, ih]

theorem allMatch_congr (h : ∀ e, m e d = m e d') (es : List String) :
    allMatch m d es = allMatch m d' es := by
  induction es with
  | nil => rfl
  | cons e es ih => rw [allMatch, allMatch, ask_congr h, ih]

theorem validateOne_congr (h : ∀ e, m e d = m e d') (v : Validator) :
    v.validateOne m d = v.validateOne m d' := by
  unfold validateOne
  rw [anyMatch_congr h, allMatch_congr h]

end Congr

section SelectsMore

variable {d d' : Data} (h : ∀ path : Path, path.selectsAny d = true → path.selectsAny d' = true)

include h

theorem anyMatch_of_selectsAny {es : List String}
    (hd : (anyMatch Matcher.byPath d es).run.run () = (.ok true, ())) :
    (anyMatch Matcher.byPath d' es).run.run () = (.ok true, ()) := by
  induction es with
  | nil => cases hd
  | cons e es ih =>
    cases hparse : Path.parse e with
    | error cause =>
      have herror := Matcher.byPath_of_parse_eq_error hparse d
      rw [anyMatch_cons_of_eq_error herror] at hd
      cases hd
    | ok path =>
      rw [anyMatch_cons (Matcher.byPath_of_parse hparse d)] at hd
      rw [anyMatch_cons (Matcher.byPath_of_parse hparse d')]
      -- the search may end earlier in the larger candidate, but only with a match
      split
      . rfl
      . next hd' =>
        rw [if_neg (fun hany => hd' (h path hany))] at hd
        exact ih hd

theorem allMatch_of_selectsAny {es : List String}
    (hd : (allMatch Matcher.byPath d es).run.run () = (.ok true, ())) :
    (allMatch Matcher.byPath d' es).run.run () = (.ok true, ()) := by
  induction es with
  | nil => rfl
  | cons e es ih =>
    cases hparse : Path.parse e with
    | error cause =>
      have herror := Matcher.byPath_of_parse_eq_error hparse d
      rw [allMatch_cons_of_eq_error herror] at hd
      cases hd
    | ok path =>
      rw [allMatch_cons (Matcher.byPath_of_parse hparse d)] at hd
      rw [allMatch_cons (Matcher.byPath_of_parse hparse d')]
      split at hd
      . next hany =>
        rw [if_pos (h path hany)]
        exact ih hd
      . cases hd

theorem validateOne_of_selectsAny {v : Validator}
    (hd : (v.validateOne Matcher.byPath d).run.run () = (.ok true, ())) :
    (v.validateOne Matcher.byPath d').run.run () = (.ok true, ()) := by
  unfold validateOne at hd ⊢
  split
  . next hstrict =>
    rw [if_pos hstrict] at hd
    exact allMatch_of_selectsAny h hd
  . next hloose =>
    rw [if_neg hloose] at hd
    exact anyMatch_of_selectsAny h hd

end SelectsMore

/--
Extra data never invalidates a candidate. A path selects in a candidate every place that it selects
in one contained in it, so whatever paths a validator holds and whether it is strict, it goes on
accepting; and it gives the same answer on candidates that differ in the order of entries.
-/
theorem validateOne_of_within {d d' : Data} (hd : d.keysDistinct = true)
    (hd' : d'.keysDistinct = true) :
    (d.Within d' →
        (∀ path : Path, Located.places (path.select d) ⊆ Located.places (path.select d'))
        ∧ ∀ v : Validator, (v.validateOne Matcher.byPath d).run.run () = (.ok true, ()) →
            (v.validateOne Matcher.byPath d').run.run () = (.ok true, ()))
      ∧ (d.Reordered d' → ∀ v : Validator,
          (v.validateOne Matcher.byPath d').run.run ()
            = (v.validateOne Matcher.byPath d).run.run ()) := by
  constructor
  . intro hwithin
    constructor
    . exact Path.places_select_subset hd hd' hwithin
    . intro v
      exact validateOne_of_selectsAny fun path => Path.selectsAny_of_within hd hd' hwithin
  . intro hreordered v
    have hbyPath : ∀ e, Matcher.byPath e d' = Matcher.byPath e d := by
      intro e
      unfold Matcher.byPath
      simp only [Path.selectsAny_eq_of_reordered hd hd' hreordered]
    rw [validateOne_congr hbyPath]

theorem validateOne_of_within_more_entries :
    Located.places (Path.select [⟨.descendantOrSelf, .anyChild, none⟩]
          (.mapping [("a", .sequence [.null])]))
        ⊆ Located.places (Path.select [⟨.descendantOrSelf, .anyChild, none⟩]
          (.mapping [("b", .boolean true), ("a", .sequence [.null, .string "x"])]))
      ∧ (((⟨{}, true, []⟩ : Validator).load (.mapping [("a", .sequence [.scalar ""])])
          ).validateOne Matcher.byPath
            (.mapping [("b", .boolean true), ("a", .sequence [.null, .string "x"])])).run.run ()
        = (.ok true, ())
      ∧ (((⟨{}, true, []⟩ : Validator).load (.mapping [("a", .sequence [.scalar ""])])
          ).validateOne Matcher.byPath
            (.mapping [("a", .sequence [.null, .string "x"]), ("b", .boolean true)])).run.run ()
        = (((⟨{}, true, []⟩ : Validator).load (.mapping [("a", .sequence [.scalar ""])])
          ).validateOne Matcher.byPath
            (.mapping [("b", .boolean true), ("a", .sequence [.null, .string "x"])])).run.run () := by
  have hsequence : (Data.sequence [.null]).Within (.sequence [.null, .string "x"]) := by
    apply Data.Within.sequence (by decide)
    intro i c c' hc hc'
    cases i with
    | zero =>
      cases hc
      cases hc'
      exact .scalar rfl
    | succ i => contradiction
  have hwithin : (Data.mapping [("a", .sequence [.null])]).Within
      (.mapping [("b", .boolean true), ("a", .sequence [.null, .string "x"])]) := by
    apply Data.Within.mapping
    . simp [Entries.keys]
    . intro k c c' hc hc'
      cases List.mem_singleton.mp (Entries.mem_of_get?_eq_some hc)
      cases hc'
      exact hsequence
  have hreordered : (Data.mapping [("b", .boolean true), ("a", .sequence [.null, .string "x"])]
      ).Reordered (.mapping [("a", .sequence [.null, .string "x"]), ("b", .boolean true)]) := by
    apply Data.Reordered.of_perm
    . exact List.Perm.swap _ _ _
    . decide
  obtain ⟨hplaces, haccepts⟩ := (validateOne_of_within rfl rfl).1 hwithin
  refine ⟨hplaces _, haccepts _ ?_, (validateOne_of_within rfl rfl).2 hreordered _⟩
  rw [validateOne_load rfl rfl]
  rfl

end Validator

end TemplateCheck
