import TemplateCheck.Outcome
import TemplateCheck.Proofs.Yaml.Folded
import TemplateCheck.Proofs.Yaml.Nodes
import TemplateCheck.Proofs.Yaml.Plain
import TemplateCheck.Yaml.Document

/-!
This module contains texts that are not YAML: JSON in brackets or quotes with another node behind it
on a later line.
-/

namespace TemplateCheck

namespace Yaml

namespace Reader

variable {n : Nat} {r r' : Reading} {t : Token} {ts post : List Token}

def Rooted (post ts : List Token) : Prop :=
  ∃ t ts', ts = t :: ts'
    ∧ (t.IsOpening ∧ Upto post 1 ts' ∨ (∃ plain text, t = .scalar plain text) ∧ ts' = post)

theorem Rooted.ne_textEnd (h : Rooted post (t :: ts)) : t ≠ .textEnd := by
  obtain ⟨t, ts, hts, ht⟩ := h
  cases hts
  rcases ht with ⟨rfl | rfl, -⟩ | ⟨⟨plain, text, rfl⟩, -⟩
  . nofun
  . nofun
  . nofun

theorem tokens_of_node {block bare : Bool} {a : Node} (hr : Rooted post r.tokens)
    (h : node block bare n r = some (a, r')) : r'.tokens = post := by
  obtain ⟨t, ts, hts, ht⟩ := hr
  cases n with
  | zero =>
    rw [node] at h
    contradiction
  | succ n =>
    rcases ht with ⟨ht, hupto⟩ | ⟨⟨plain, text, rfl⟩, rfl⟩
    . obtain ⟨-, hitems, hentries⟩ := @keeps_node post n
      rcases node_eq_some hts (.inl ht) h with ⟨⟨plain, text, rfl, -⟩, -⟩ | ⟨r₁, rfl, hflow⟩
      . rcases ht with h | h <;> contradiction
      . rcases hflow with ⟨-, items, h⟩ | ⟨-, entries, h⟩
        . exact (hitems true h hupto).eq_of_zero
        . exact (hentries true h hupto).eq_of_zero
    . have ht : (Token.scalar plain text).IsInner := .inr (.inr ⟨plain, text, rfl⟩)
      rcases node_eq_some hts (.inr (.inr (.inl ht))) h
        with ⟨-, htail⟩ | ⟨r₁, -, ⟨h, -⟩ | ⟨h, -⟩⟩
      . exact htail
      . contradiction
      . contradiction

theorem skipEnds_eq_some {u : Unit} (hts : r.tokens = t :: ts) (ht : t ≠ .documentEnd)
    (h : skipEnds n r = some (u, r')) : r' = r := by
  cases n with
  | zero =>
    cases h
    rfl
  | succ n =>
    obtain ⟨b, r₁, htake, hnext⟩ := bind_eq_some_iff.mp h
    rcases takeIf_eq_some htake with ⟨-, hts'⟩ | ⟨rfl, rfl, -⟩
    . exact absurd (List.cons.inj (hts.symm.trans hts')).1 ht
    . cases hnext
      rfl

theorem directives_eq_some {seen : Bool} {known result : List (List Char × List Char)}
    (hts : r.tokens = t :: ts) (ht : endsEmpty t = false)
    (h : directives seen known n r = some (result, r')) : r' = r := by
  cases n with
  | zero =>
    cases h
    rfl
  | succ n =>
    obtain ⟨t', r₁, hpeek, hnext⟩ := bind_eq_some_iff.mp h
    obtain ⟨rfl, ts', hts'⟩ := peek_eq_some hpeek
    obtain ⟨rfl, rfl⟩ := List.cons.inj (hts.symm.trans hts')
    split at hnext
    . contradiction
    . contradiction
    . cases hnext
      rfl

theorem modify_eq_some {f : Reading → Reading} {u : Unit}
    (h : (modify f : Reader Unit) r = some (u, r')) : r' = f r := by
  cases h
  rfl

theorem document?_ne_some {o : Option Node} (hts : r.tokens = t :: ts) (ht : endsEmpty t = false) :
    document? false n r ≠ some (o, r') := by
  intro h
  obtain ⟨u₁, r₁, hmodify, h₁⟩ := bind_eq_some_iff.mp h
  have hts₁ : r₁.tokens = t :: ts := by
    rw [modify_eq_some hmodify]
    exact hts
  have hend : t ≠ .documentEnd := by
    rintro rfl
    contradiction
  have htext : t ≠ .textEnd := by
    rintro rfl
    contradiction
  have hstart : t ≠ .documentStart := by
    rintro rfl
    contradiction
  dsimp only at h₁
  rw [if_pos (by decide)] at h₁
  obtain ⟨u₂, r₂, hends, h₂⟩ := bind_eq_some_iff.mp h₁
  rw [skipEnds_eq_some hts₁ hend hends] at h₂
  obtain ⟨t', r₃, hpeek, h₃⟩ := bind_eq_some_iff.mp h₂
  obtain ⟨rfl, ts', hts'⟩ := peek_eq_some hpeek
  obtain ⟨rfl, rfl⟩ := List.cons.inj (hts₁.symm.trans hts')
  rw [if_neg (by simp [htext]), if_neg (by simp)] at h₃
  obtain ⟨shorthands, r₄, hdirectives, h₄⟩ := bind_eq_some_iff.mp h₃
  rw [directives_eq_some hts' ht hdirectives] at h₄
  obtain ⟨u₅, r₅, hmodify', h₅⟩ := bind_eq_some_iff.mp h₄
  obtain ⟨u₆, r₆, hexpect, -⟩ := bind_eq_some_iff.mp h₅
  have hts₅ := expect_eq_some hexpect
  rw [modify_eq_some hmodify'] at hts₅
  exact hstart (List.cons.inj (hts'.symm.trans hts₅)).1

theorem exists_node_of_document? {o : Option Node} (hts : r.tokens = t :: ts)
    (ht : startsBare t = true) (htext : t ≠ .textEnd) (h : document? true n r = some (o, r')) :
    ∃ r₁ root r₂, r₁.tokens = t :: ts ∧ node true false n r₁ = some (root, r₂) ∧ o = some root
      ∧ (r₂.tokens = .documentEnd :: r'.tokens ∨ r₂.tokens = r'.tokens ∧ r₂.tokens ≠ []) := by
  obtain ⟨u₁, r₁, hmodify, h₁⟩ := bind_eq_some_iff.mp h
  have hts₁ : r₁.tokens = t :: ts := by
    rw [modify_eq_some hmodify]
    exact hts
  dsimp only at h₁
  rw [if_neg (by decide)] at h₁
  obtain ⟨t', r₂, hpeek, h₂⟩ := bind_eq_some_iff.mp h₁
  obtain ⟨rfl, ts', hts'⟩ := peek_eq_some hpeek
  obtain ⟨rfl, rfl⟩ := List.cons.inj (hts₁.symm.trans hts')
  rw [if_neg (by simp [htext]), if_pos (by simp [ht])] at h₂
  obtain ⟨root, r₃, hnode, h₃⟩ := bind_eq_some_iff.mp h₂
  obtain ⟨u₄, r₄, hdiscard, h₄⟩ := bind_eq_some_iff.mp h₃
  cases h₄
  obtain ⟨b, htake⟩ := discard_eq_some hdiscard
  refine ⟨r₂, root, r₃, hts₁, hnode, rfl, ?_⟩
  rcases takeIf_eq_some htake with ⟨-, hts⟩ | ⟨-, rfl, t', ts', hts, -⟩
  . exact .inl hts
  . exact .inr ⟨rfl, by simp [hts]⟩

theorem tokens_of_document? {o : Option Node} (hr : Rooted post r.tokens)
    (h : document? true n r = some (o, r')) :
    o.isSome ∧ (post = .documentEnd :: r'.tokens ∨ post = r'.tokens ∧ post ≠ []) := by
  obtain ⟨t, ts, hts, ht⟩ := id hr
  have hbare : startsBare t = true := by
    rcases ht with ⟨rfl | rfl, -⟩ | ⟨⟨plain, text, rfl⟩, -⟩ <;> rfl
  have htext : t ≠ .textEnd := Rooted.ne_textEnd (hts ▸ hr)
  obtain ⟨r₁, root, r₂, hts₁, hnode, rfl, hr₂⟩ := exists_node_of_document? hts hbare htext h
  have hr₁ : Rooted post r₁.tokens := by
    rw [hts₁, ← hts]
    exact hr
  rw [tokens_of_node hr₁ hnode] at hr₂
  exact ⟨rfl, hr₂⟩

theorem document?_of_scalar {o : Option Node} {plain : Bool} {text : List Char}
    (hts : r.tokens = .scalar plain text :: ts) (h : document? true n r = some (o, r')) :
    o = some (.scalar none none plain text) := by
  obtain ⟨r₁, root, r₂, hts₁, hnode, rfl, -⟩ := exists_node_of_document? hts rfl nofun h
  cases n with
  | zero =>
    rw [node] at hnode
    contradiction
  | succ n =>
    have ht : (Token.scalar plain text).IsInner := .inr (.inr ⟨plain, text, rfl⟩)
    rcases node_eq_some hts₁ (.inr (.inr (.inl ht))) hnode
      with ⟨⟨plain, text, heq, rfl⟩, -⟩ | ⟨r₁, -, ⟨h, -⟩ | ⟨h, -⟩⟩
    . cases heq
      rfl
    . contradiction
    . contradiction

theorem none_mem_documents {ts : List Token} {n : Nat} (hts : Rooted post ts)
    (hpost : post = [] ∨ ∃ t later, post = t :: later ∧ endsEmpty t = false) :
    none ∈ documents true (n + 2) ts := by
  unfold documents
  split
  . exact List.mem_singleton_self _
  . next r' hr =>
    exact absurd (tokens_of_document? hts hr).1 (by simp)
  . next root r' hr =>
    obtain ⟨-, hpost'⟩ := tokens_of_document? hts hr
    refine List.mem_cons_of_mem _ ?_
    have hlater : ∃ t later, r'.tokens = t :: later ∧ endsEmpty t = false := by
      rcases hpost with rfl | ⟨t, later, rfl, ht⟩
      . rcases hpost' with h | ⟨-, h⟩ <;> contradiction
      . rcases hpost' with h | ⟨h, -⟩
        . obtain ⟨rfl, -⟩ := List.cons.inj h
          contradiction
        . exact ⟨t, later, h.symm, ht⟩
    obtain ⟨t, later, htokens, ht⟩ := hlater
    unfold documents
    split
    . exact List.mem_singleton_self _
    . next h => exact absurd h (document?_ne_some htokens ht)
    . next h => exact absurd h (document?_ne_some htokens ht)

end Reader

open Reader

theorem rooted_of_whole {front post : List Token} (h : Scan.Whole front) :
    Rooted post (front ++ post) := by
  rcases h with ⟨t, ts, rfl, ht, hlevels⟩ | ⟨text, rfl⟩
  . exact ⟨t, ts ++ post, rfl, .inl ⟨ht, ts, 0, rfl, hlevels, .inl rfl⟩⟩
  . exact ⟨.scalar false text, post, rfl, .inr ⟨⟨false, text, rfl⟩, rfl⟩⟩

theorem exists_rooted_of_progress {rest : List Char} {s : Scan} (h : s.Progress rest) :
    s.tokens = [] ∨ ∃ post, Rooted post s.tokens.reverse
      ∧ (post = [] ∨ ∃ t later, post = t :: later ∧ endsEmpty t = false) := by
  cases h with
  | start hs =>
    rw [hs]
    exact .inl rfl
  | inside h =>
    obtain ⟨ps, hopen, -⟩ := h
    obtain ⟨t, ts, hts, ht, hlevels⟩ := hopen.tokens
    refine .inr ⟨[], ⟨t, ts, hts, .inl ⟨ht, ts, _, ?_, hlevels, .inr rfl⟩⟩, .inl rfl⟩
    rw [List.append_nil]
  | behind h =>
    have hrooted := @rooted_of_whole _ [] h.whole
    rw [List.append_nil] at hrooted
    exact .inr ⟨[], hrooted, .inl rfl⟩
  | beyond h hfront =>
    obtain ⟨later, htokens, hlater⟩ := h.tokens
    obtain ⟨t, hhead, ht⟩ := hlater trivial
    obtain ⟨later, rfl⟩ := List.head?_eq_some_iff.mp hhead
    rw [htokens]
    exact .inr ⟨t :: later, rooted_of_whole hfront, .inr ⟨t, later, rfl, ht⟩⟩

theorem ofText_of_nil {text : List Char} (h : Token.ofText text = []) :
    Node.ofText text = [none] := by
  unfold Node.ofText
  rw [h]
  split
  . rfl
  . rfl

theorem ofText_of_cons {text : List Char} {t : Token} {ts : List Token}
    (h : Token.ofText text = t :: ts) (ht : t ≠ .textEnd) : Node.ofText text = [none]
      ∨ Node.ofText text = Reader.documents true (ts.length + 2) (t :: ts) := by
  have hne : (t :: ts == [.textEnd]) = false := by
    rw [beq_eq_false_iff_ne]
    exact fun heq => ht (List.cons.inj heq).1
  unfold Node.ofText
  rw [h]
  split
  . exact .inl rfl
  . dsimp only
    rw [hne, if_neg Bool.false_ne_true]
    exact .inr rfl

theorem none_mem_ofText {rest text : List Char} (h : Scan.Leads rest text)
    (hrest : Scan.Continues rest) : none ∈ Node.ofText text := by
  have htokens : ∃ s : Scan, s.Progress rest ∧ Token.ofText text = s.tokens.reverse :=
    ⟨_, .run hrest (.start rfl h) _, rfl⟩
  obtain ⟨s, hprogress, htokens⟩ := htokens
  rcases exists_rooted_of_progress hprogress with hnil | ⟨post, hrooted, hpost⟩
  . rw [hnil] at htokens
    rw [ofText_of_nil htokens]
    exact List.mem_singleton_self _
  . obtain ⟨t, ts, hts, -⟩ := id hrooted
    rw [hts] at htokens hrooted
    rcases ofText_of_cons htokens hrooted.ne_textEnd with heq | heq
    . rw [heq]
      exact List.mem_singleton_self _
    . rw [heq]
      exact none_mem_documents hrooted hpost

theorem exists_error_of_none_mem {ns : List (Option Node)} (h : none ∈ ns) (i : Nat) :
    ∃ j, documents.go i ns = .error j := by
  induction ns generalizing i with
  | nil => contradiction
  | cons n ns ih =>
    unfold documents.go
    split
    . exact ⟨i, rfl⟩
    . next v hv =>
      have hns : none ∈ ns := by
        rcases List.mem_cons.mp h with rfl | h
        . contradiction
        . exact h
      obtain ⟨j, hj⟩ := ih hns (i + 1)
      rw [hj]
      exact ⟨j, rfl⟩

theorem exists_documents_eq_error {text : String} {rest : List Char}
    (h : Scan.Leads rest text.toList) (hrest : Scan.Continues rest) :
    ∃ i, documents text = .error i :=
  exists_error_of_none_mem (none_mem_ofText h hrest) 1

theorem tokens_of_foldedProgress {rest : List Char} {s : Scan} (h : s.FoldedProgress rest) :
    s.tokens.reverse = [] ∨ ∃ scalar ts, HasGap scalar
      ∧ s.tokens.reverse = .scalar true scalar :: ts := by
  cases h with
  | start hs =>
    rw [hs]
    exact .inl rfl
  | folded h =>
    rw [h.tokens]
    exact .inr ⟨_, [], h.gap, rfl⟩
  | beyond hgap h =>
    obtain ⟨ts, hts, -⟩ := h.tokens
    exact .inr ⟨_, ts, hgap, hts⟩

theorem head?_ofText_of_leadsWord {rest text : List Char} (h : Scan.LeadsWord rest text)
    (hrest : Scan.Continues rest) : (Node.ofText text).head? = some none
      ∨ ∃ scalar, HasGap scalar
        ∧ (Node.ofText text).head? = some (some (.scalar none none true scalar)) := by
  have htokens : ∃ s : Scan, s.FoldedProgress rest ∧ Token.ofText text = s.tokens.reverse :=
    ⟨_, .run hrest (.start rfl h) _, rfl⟩
  obtain ⟨s, hprogress, htokens⟩ := htokens
  rcases tokens_of_foldedProgress hprogress with hnil | ⟨scalar, ts, hgap, hts⟩
  . rw [hnil] at htokens
    exact .inl (by rw [ofText_of_nil htokens]; rfl)
  . rw [hts] at htokens
    rcases ofText_of_cons htokens nofun with heq | heq
    . exact .inl (by rw [heq]; rfl)
    . rw [heq]
      unfold Reader.documents
      split
      . exact .inl rfl
      . next hr => exact absurd (document?_of_scalar rfl hr) nofun
      . next root r hr =>
        cases document?_of_scalar rfl hr
        exact .inr ⟨scalar, hgap, rfl⟩

theorem valueOf_scalar (anchored : List (Nat × Node)) (depth : Nat) (anchor? : Option Nat)
    (tag? : Option (List Char)) (plain : Bool) (text : List Char) :
    valueOf anchored depth (.scalar anchor? tag? plain text)
      = do return withTag tag? (← scalarValue? tag? plain text) := by
  cases depth with
  | zero =>
    rw [valueOf]
    rfl
  | succ depth =>
    rw [valueOf]
    rfl

theorem value?_of_hasGap {scalar : List Char} (h : HasGap scalar) :
    (Node.scalar none none true scalar).value? = some (.string (String.ofList scalar)) := by
  have hvalue : scalarValue? none true scalar = some (.string (String.ofList scalar)) :=
    Plain.value?_eq_string h
  unfold Node.value?
  rw [valueOf_scalar, hvalue]
  rfl

theorem exists_string_of_documents_eq_ok {text : String} {rest : List Char} {vs : List Value}
    (h : Scan.LeadsWord rest text.toList) (hrest : Scan.Continues rest)
    (hvs : documents text = .ok vs) : ∃ scalar vs', vs = .string scalar :: vs' := by
  unfold Yaml.documents at hvs
  rcases head?_ofText_of_leadsWord h hrest with hhead | ⟨scalar, hgap, hhead⟩
  . obtain ⟨ns, hns⟩ := List.head?_eq_some_iff.mp hhead
    rw [hns] at hvs
    contradiction
  . obtain ⟨ns, hns⟩ := List.head?_eq_some_iff.mp hhead
    rw [hns, documents.go, Option.bind_some, value?_of_hasGap hgap] at hvs
    obtain ⟨vs', -, rfl⟩ := Outcome.map_eq_ok_iff.mp hvs
    exact ⟨_, vs', rfl⟩

end Yaml

end TemplateCheck
