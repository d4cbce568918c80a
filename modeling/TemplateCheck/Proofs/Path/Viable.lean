import TemplateCheck.Proofs.Path.Grammar

/-!
This module contains where the reader of paths stops. What lies before a character that it did not
expect can be completed to a path, and so can the whole text where it ended too early.
-/

namespace TemplateCheck

namespace Path

open Text

variable {s rest more : List Char} {fault : Fault} {p q : List Char → Prop}

/--
Whether a fault in reading one of the texts `p` off the front of a text leaves a way to go on: from
what lies before a character that was not expected, and from the end of a text that ended. The other
faults do not tell where they are.
-/
def Fault.Viable (p : List Char → Prop) (s : List Char) : Fault → Prop
  | .unexpected rest _ => ∃ before more, s = before ++ rest ∧ rest ≠ [] ∧ p (before ++ more)
  | .ended _ => ∃ more, more ≠ [] ∧ p (s ++ more)
  | _ => True

inductive Fault.AtFront : List Char → Fault → Prop where
  | unexpected {c : Char} {s : List Char} (expected : String) :
    AtFront (c :: s) (.unexpected (c :: s) expected)
  | ended (expected : String) : AtFront [] (.ended expected)

theorem Fault.AtFront.viable (h : fault.AtFront s) (hne : more ≠ []) (hmore : p more) :
    fault.Viable p s := by
  cases h with
  | unexpected => exact ⟨[], more, rfl, List.cons_ne_nil _ _, hmore⟩
  | ended => exact ⟨more, hne, hmore⟩

theorem Fault.Viable.within (h : fault.Viable p s) (before : List Char)
    (hpq : ∀ u, p u → ∃ after, q (before ++ (u ++ after))) :
    fault.Viable q (before ++ s) := by
  cases fault with
  | unexpected rest expected =>
    obtain ⟨front, more, rfl, hne, hp⟩ := h
    obtain ⟨after, hq⟩ := hpq _ hp
    exact ⟨before ++ front, more ++ after, by simp, hne, by simpa using hq⟩
  | ended expected =>
    obtain ⟨more, hne, hp⟩ := h
    obtain ⟨after, hq⟩ := hpq _ hp
    exact ⟨more ++ after, by simp [hne], by simpa using hq⟩
  | _ => trivial

theorem atFront_of_readChar {c : Char} (h : readChar c s = .error fault) : fault.AtFront s := by
  unfold readChar at h
  split at h
  . cases h
    exact .ended _
  . split at h
    . contradiction
    . cases h
      exact .unexpected _

theorem atFront_of_readWord {word : String} (h : readWord word s = .error fault) :
    fault.AtFront s := by
  unfold readWord at h
  split at h
  . contradiction
  . cases s with
    | nil =>
      cases h
      exact .ended _
    | cons c s =>
      cases h
      exact .unexpected _

theorem viable_of_readName (h : readName s = .error fault) : fault.Viable p rest := by
  unfold readName at h
  dsimp only at h
  split at h
  . cases h
    trivial
  . contradiction

theorem viable_of_readNumeral (h : readNumeral s = .error fault) : fault.Viable p rest := by
  unfold readNumeral at h
  dsimp only at h
  split at h
  . cases h
    trivial
  . contradiction

theorem viable_of_readString_cons {quote : Char} (hquote : quote = '\'' ∨ quote = '"')
    (h : readString (quote :: s) = .error fault) :
    fault.Viable (fun u => ∃ v text, u = quote :: (v ++ [quote]) ∧ Text.Spells quote v text)
      (quote :: s) := by
  rw [readString, if_pos hquote] at h
  cases hread : readQuoted quote s with
  | ok r =>
    rw [hread] at h
    contradiction
  | error e =>
    obtain ⟨more, text, hspells⟩ := exists_spells_of_readQuoted_eq_error hread
    rw [hread] at h
    cases e with
    | missingQuote =>
      cases h
      exact ⟨more ++ [quote], by simp, _, _, by simp, hspells⟩
    | missingEscaped =>
      cases h
      exact ⟨more ++ [quote], by simp, _, _, by simp, hspells⟩

theorem viable_of_readString (h : readString s = .error fault) :
    fault.Viable (fun u => ∃ quote v text, (quote = '\'' ∨ quote = '"')
      ∧ u = quote :: (v ++ [quote]) ∧ Text.Spells quote v text) s := by
  have hempty : ∃ quote v text, (quote = '\'' ∨ quote = '"')
      ∧ ['"', '"'] = quote :: (v ++ [quote]) ∧ Text.Spells quote v text :=
    ⟨'"', [], [], .inr rfl, rfl, .nil⟩
  cases s with
  | nil =>
    cases h
    exact (Fault.AtFront.ended _).viable (List.cons_ne_nil _ _) hempty
  | cons c s =>
    by_cases hc : c = '\'' ∨ c = '"'
    . apply (viable_of_readString_cons hc h).within []
      intro u ⟨v, text, hu, hspells⟩
      exact ⟨[], c, v, text, hc, by simpa using hu, hspells⟩
    . rw [readString, if_neg hc] at h
      cases h
      exact (Fault.AtFront.unexpected _).viable (List.cons_ne_nil _ _) hempty

theorem viable_of_comparison {α : Type} {f : List Char × List Char → Except Fault α}
    (hnumber : p "==0".toList) (hf : ∀ r, f r = .error fault → fault.Viable p s)
    (h : (do f (← readNumeral (skipBlank (← readWord "==" s)))) = .error fault) :
    fault.Viable p s := by
  rcases Outcome.bind_eq_error_iff.mp h with hword | ⟨s₁, -, h⟩
  . exact (atFront_of_readWord hword).viable (List.cons_ne_nil _ _) hnumber
  . rcases Outcome.bind_eq_error_iff.mp h with hnumeral | ⟨r, -, h⟩
    . exact viable_of_readNumeral hnumeral
    . exact hf r h

theorem viable_of_readIndexTest (hnumber : p "==0".toList) (h : readIndexTest s = .error fault) :
    fault.Viable p s := by
  apply viable_of_comparison hnumber _ h
  intro ⟨text, rest⟩ h
  dsimp only at h
  split at h
  . contradiction
  . cases h
    trivial

theorem viable_of_readValueTest (hnumber : p "==0".toList)
    (htext : "eq".toList <+: s → ∀ v quote u text, allBlank v = true →
      (quote = '\'' ∨ quote = '"') → Text.Spells quote u text →
      p ("eq".toList ++ (v ++ quote :: (u ++ [quote]))))
    (h : readValueTest s = .error fault) : fault.Viable p s := by
  unfold readValueTest at h
  split at h
  . apply viable_of_comparison hnumber _ h
    intro ⟨text, rest⟩ h
    dsimp only at h
    split at h
    . contradiction
    . cases h
      trivial
  . rcases Outcome.bind_eq_error_iff.mp h with hword | ⟨s₁, hword, h⟩
    . -- a number is a way to go on wherever a text is
      exact (atFront_of_readWord hword).viable (List.cons_ne_nil _ _) hnumber
    . rcases Outcome.bind_eq_error_iff.mp h with hstring | ⟨_, -, h⟩
      . obtain ⟨v, hs₁, hv, -⟩ := skipBlank_eq_iff.mp (rfl : skipBlank s₁ = skipBlank s₁)
        have hs : s = "eq".toList ++ v ++ skipBlank s₁ := by
          rw [readWord_eq_ok_iff.mp hword, List.append_assoc, ← hs₁]
        rw [hs]
        apply (viable_of_readString hstring).within
        rintro _ ⟨quote, u, text, hquote, rfl, hu⟩
        refine ⟨[], ?_⟩
        rw [List.append_nil, List.append_assoc]
        apply htext _ v quote u text hv hquote hu
        rw [hs, List.append_assoc]
        exact List.prefix_append _ _
      . contradiction

theorem viable_of_readTest {subject w : List Char} (hw : allBlank w = true)
    (hstop : StopsAt isKeyChar (w ++ s)) (h : readTest subject s = .error fault) :
    fault.Viable (fun u => ∃ filter, Filter.Spells (subject ++ (w ++ u)) filter) s := by
  unfold readTest at h
  split at h
  . next hsubject =>
    subst hsubject
    apply viable_of_readIndexTest _ h
    have hspells := @Filter.Spells.index w [] [] ['0'] hw rfl (.inl rfl) (List.cons_ne_nil _ _) rfl
      (by decide)
    exact ⟨_, by simpa using hspells⟩
  . split at h
    . next hsubject =>
      subst hsubject
      apply viable_of_readValueTest _ _ h
      . have hspells := @Filter.Spells.numberEq w [] ['0'] _ hw rfl rfl rfl
        exact ⟨_, by simpa using hspells⟩
      . intro ⟨t, ht⟩ v quote u text hv hquote hu
        -- right behind the name, `eq` would have been read as a part of it
        have hne : w ≠ [] := by
          rintro rfl
          rw [← ht] at hstop
          have := stopsAt_cons_iff.mp hstop
          contradiction
        have hspells := Filter.Spells.textEq hw hne hv hquote hu
        exact ⟨_, by simpa using hspells⟩
    . cases h
      trivial

theorem viable_of_readFilter (h : readFilter s = .error fault) :
    fault.Viable (fun u => ∃ w v w' filter, u = w ++ (v ++ (w' ++ [']'])) ∧ allBlank w = true
      ∧ Filter.Spells v filter ∧ allBlank w' = true) s := by
  rcases Outcome.bind_eq_error_iff.mp h with hname | ⟨⟨subject, s₁⟩, hname, h⟩
  . exact viable_of_readName hname
  obtain ⟨hs₀, -, hstop⟩ := readName_eq_ok_iff.mp hname
  obtain ⟨w, hs, hw, -⟩ := skipBlank_eq_iff.mp hs₀
  obtain ⟨v, hs₁, hv, -⟩ := skipBlank_eq_iff.mp (rfl : skipBlank s₁ = skipBlank s₁)
  rw [hs₁] at hstop hs
  rcases Outcome.bind_eq_error_iff.mp h with htest | ⟨⟨filter, s₂⟩, htest, h⟩
  . have hsplit : s = w ++ (subject ++ v) ++ skipBlank s₁ := by
      rw [hs]
      simp
    rw [hsplit]
    apply (viable_of_readTest hv hstop htest).within
    intro u ⟨filter, hspells⟩
    exact ⟨[']'], w, subject ++ (v ++ u), [], filter, by simp, hw, hspells, rfl⟩
  . obtain ⟨u, hu, hspells⟩ := exists_spells_of_readTest hv hstop htest
    obtain ⟨w', hs₂, hw', -⟩ := skipBlank_eq_iff.mp (rfl : skipBlank s₂ = skipBlank s₂)
    rcases Outcome.bind_eq_error_iff.mp h with hchar | ⟨_, -, h⟩
    . have hsplit : s = w ++ (subject ++ (v ++ u)) ++ w' ++ skipBlank s₂ := by
        rw [hs, hu]
        simp only [List.append_assoc, ← hs₂]
      rw [hsplit]
      have hclosed : fault.Viable (· = [']']) (skipBlank s₂) :=
        (atFront_of_readChar hchar).viable (List.cons_ne_nil _ _) rfl
      apply hclosed.within
      rintro _ rfl
      exact ⟨[], w, subject ++ (v ++ u), w', filter, by simp, hw, hspells, hw'⟩
    . contradiction

theorem viable_of_readSelector (h : readSelector s = .error fault) :
    fault.Viable (fun u => ∃ selector, Selector.Spells u selector) s := by
  unfold readSelector at h
  split at h
  . cases h
    exact (Fault.AtFront.ended _).viable (List.cons_ne_nil _ _) ⟨_, .anyChild⟩
  . contradiction
  . contradiction
  . rw [Outcome.map_eq_error_iff] at h
    apply (viable_of_readString_cons (.inr rfl) h).within []
    rintro _ ⟨v, text, rfl, hspells⟩
    exact ⟨[], _, by simpa using Selector.Spells.quoted hspells⟩
  . rw [Outcome.map_eq_error_iff] at h
    exact viable_of_readName h

theorem viable_of_readStep (hread : readStep s = .error fault) :
    fault.Viable (fun u => ∃ step, Step.Spells u step) s := by
  rcases Outcome.bind_eq_error_iff.mp hread with haxis | ⟨⟨axis, s₁⟩, haxis, hread₁⟩
  . rcases Outcome.bind_eq_error_iff.mp haxis with hchar | ⟨_, -, hread₁⟩
    . exact (atFront_of_readChar hchar).viable (List.cons_ne_nil _ _)
        ⟨_, @Step.Spells.plain .child _ _ .anyChild⟩
    . split at hread₁ <;> contradiction
  rw [exists_eq_slashes_of_readAxis haxis]
  rcases Outcome.bind_eq_error_iff.mp hread₁ with
    hselector | ⟨⟨selector, s₂⟩, hselector, hread₂⟩
  . apply (viable_of_readSelector hselector).within
    intro u ⟨selector, hspells⟩
    exact ⟨[], _, by simpa using .plain hspells⟩
  obtain ⟨u, hs₁, hu⟩ := exists_spells_of_readSelector hselector
  rcases Outcome.bind_eq_error_iff.mp hread₂ with hfilter | ⟨_, -, hread₃⟩
  . unfold readFilter? at hfilter
    split at hfilter
    . next s₃ =>
      rw [Outcome.map_eq_error_iff] at hfilter
      have hsplit : slashes axis ++ s₁ = slashes axis ++ u ++ ['['] ++ s₃ := by
        rw [hs₁]
        simp
      rw [hsplit]
      apply (viable_of_readFilter hfilter).within
      rintro _ ⟨w, v, w', filter, rfl, hw, hv, hw'⟩
      exact ⟨[], _, by simpa using @Step.Spells.filtered axis _ _ _ _ _ _ hu hw hv hw'⟩
    . contradiction
  . contradiction

theorem readSteps_error_cases (h : readSteps s = .error fault) :
    readStep s = .error fault
      ∨ (∃ step c rest, readStep s = .ok (step, c :: rest)
        ∧ fault = .unexpected (c :: rest) "'/' or end of path")
      ∨ ∃ step rest, readStep s = .ok (step, '/' :: rest)
        ∧ readSteps ('/' :: rest) = .error fault := by
  rw [readSteps] at h
  split at h
  . next hstep =>
    cases h
    exact .inl hstep
  . next step rest hstep =>
    dsimp only at h
    split at h
    . contradiction
    . split at h
      . next hc =>
        subst hc
        exact .inr (.inr ⟨step, _, hstep, Outcome.map_eq_error_iff.mp h⟩)
      . cases h
        exact .inr (.inl ⟨step, _, _, hstep, rfl⟩)

theorem viable_of_readSteps {s : List Char} (h : readSteps s = .error fault) :
    fault.Viable (fun u => ∃ path, Path.Spells u path) s := by
  -- the recursion is that of the reader: each step leaves a shorter text
  rcases readSteps_error_cases h with
    hstep | ⟨step, c, rest, hstep, rfl⟩ | ⟨step, rest, hstep, hsteps⟩
  . apply (viable_of_readStep hstep).within []
    intro u ⟨step, hspells⟩
    exact ⟨[], _, by simpa using .last hspells⟩
  . obtain ⟨u, hs, hu⟩ := exists_spells_of_readStep hstep
    exact ⟨u, [], hs, List.cons_ne_nil _ _, _, by simpa using .last hu⟩
  . have := readStep_length hstep
    obtain ⟨u, hs, hu⟩ := exists_spells_of_readStep hstep
    rw [hs]
    apply (viable_of_readSteps hsteps).within
    intro v ⟨path, hspells⟩
    exact ⟨[], _, by simpa using .cons hu hspells⟩
termination_by s.length

theorem viable_of_readAll (h : readAll s = .error fault) :
    fault.Viable (fun u => ∃ path, readAll u = .ok path) s := by
  obtain ⟨w, hs, hw, -⟩ := skipBlank_eq_iff.mp (rfl : skipBlank s = skipBlank s)
  unfold readAll at h
  dsimp only at h
  split at h
  . split at h
    . contradiction
    . rw [hs]
      apply (viable_of_readSteps h).within
      intro u ⟨path, hspells⟩
      exact ⟨[], path, readAll_eq_ok_iff.mpr ⟨w, u, by simp, hw, .inr hspells⟩⟩
  . cases h
    trivial

theorem readAll_of_parse_eq_error {expression : String} {error : PathError}
    (h : parse expression = .error error) :
    ∃ fault, readAll expression.toList = .error fault
      ∧ error = fault.toError (utf8Length expression.toList) := by
  unfold parse at h
  dsimp only at h
  cases hread : readAll expression.toList with
  | ok path =>
    rw [hread] at h
    contradiction
  | error fault =>
    rw [hread] at h
    cases h
    exact ⟨fault, rfl, rfl⟩

theorem parse_ofList_eq_ok {path : Path} (h : readAll s = .ok path) :
    parse (String.ofList s) = .ok path := by
  unfold parse
  dsimp only
  rw [String.toList_ofList, h]
  rfl

/--
The errors of a path point at the right place. The position of a character that was not expected is
that of a character of the expression, which is the one reported, and what lies before it can be
completed to a path. An expression that ended can be continued to a path.
-/
theorem viable_of_parse_eq_error {expression : String} {error : PathError}
    (h : parse expression = .error error) :
    (∀ position found expected, error = .unexpectedToken position found expected →
      ∃ before c after, expression = before ++ String.singleton c ++ after
        ∧ before.utf8ByteSize = position ∧ found = String.singleton c
        ∧ ∃ more path, parse (before ++ more) = .ok path)
    ∧ (∀ expected, error = .unexpectedEnd expected →
      ∃ more path, more ≠ "" ∧ parse (expression ++ more) = .ok path) := by
  obtain ⟨fault, hread, rfl⟩ := readAll_of_parse_eq_error h
  have hviable := viable_of_readAll hread
  constructor
  . intro position found expected herror
    cases fault with
    | unexpected rest expected' =>
      obtain ⟨before, more, hs, hne, path, hpath⟩ := hviable
      obtain ⟨c, after, rfl⟩ := List.exists_cons_of_ne_nil hne
      cases herror
      have hexpression : expression = String.ofList (before ++ c :: after) := by
        rw [← hs, String.ofList_toList]
      refine ⟨String.ofList before, c, String.ofList after, ?_, ?_, rfl,
        String.ofList more, path, ?_⟩
      . rw [hexpression, String.ofList_append, String.ofList_cons, String.append_assoc]
      . rw [hs, utf8Length_append, utf8ByteSize_ofList, Nat.add_sub_cancel]
      . rw [← String.ofList_append]
        exact parse_ofList_eq_ok hpath
    | _ => contradiction
  . intro expected herror
    cases fault with
    | ended expected' =>
      obtain ⟨more, hne, path, hpath⟩ := hviable
      refine ⟨String.ofList more, path, by simpa using hne, ?_⟩
      have hexpression : expression = String.ofList expression.toList := String.ofList_toList.symm
      rw [hexpression, ← String.ofList_append]
      exact parse_ofList_eq_ok hpath
    | _ => contradiction

theorem viable_of_parse_eq_error_blank_escape :
    (parse "//é b" = .error (.unexpectedToken 4 " " "'/' or end of path")
      ∧ ∃ before c after, "//é b" = before ++ String.singleton c ++ after
        ∧ before.utf8ByteSize = 4 ∧ " " = String.singleton c
        ∧ ∃ more path, parse (before ++ more) = .ok path)
    ∧ parse "/\"a\\" = .error (.unexpectedEnd "escaped character")
      ∧ ∃ more path, more ≠ "" ∧ parse ("/\"a\\" ++ more) = .ok path := by
  have hblank : parse "//é b" = .error (.unexpectedToken 4 " " "'/' or end of path") := by
    decide +kernel
  have hescape : parse "/\"a\\" = .error (.unexpectedEnd "escaped character") := by
    decide +kernel
  exact ⟨⟨hblank, (viable_of_parse_eq_error hblank).1 _ _ _ rfl⟩,
    hescape, (viable_of_parse_eq_error hescape).2 _ rfl⟩

end Path

end TemplateCheck
