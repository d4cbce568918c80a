import Mathlib.Data.List.Basic
import TemplateCheck.Json.Parse

/-!
This module contains the shape of JSON texts as far as it can be seen character by character: words,
what stands in quotes, and which bracket closes the ones before it.
-/

namespace TemplateCheck

namespace Json

inductive QuotedBody : List Char → Prop
  | nil : QuotedBody []
  | plain {c : Char} {s : List Char} (hquote : c ≠ '"') (hescape : c ≠ '\\') (hs : QuotedBody s) :
    QuotedBody (c :: s)
  | escape {e : Char} {s : List Char} (he : (escapes.lookup e).isSome) (hs : QuotedBody s) :
    QuotedBody ('\\' :: e :: s)
  | unit {a b c d : Char} {s : List Char} (hs : QuotedBody s) :
    QuotedBody ('\\' :: 'u' :: a :: b :: c :: d :: s)

def isWordChar (c : Char) : Bool :=
  c.isAlphanum || c == '-' || c == '+' || c == '.'

structure BareWord (w : List Char) : Prop where
  all : ∀ c ∈ w, isWordChar c = true
  front : ∃ c s, w = c :: s
    ∧ (c.isAlphanum = true ∨ c = '-' ∧ ∃ d s', s = d :: s' ∧ d.isDigit = true)

def Ends (s : List Char) : Prop :=
  ∃ c t, skipSpace s = c :: t ∧ (c = ',' ∨ c = ']' ∨ c = '\x7d')

inductive Bracketed (rest : List Char) : Nat → List Char → Prop
  | closed : Bracketed rest 0 rest
  | opening {d : Nat} {c : Char} {s t : List Char} (hs : skipSpace s = c :: t)
    (hc : c = '[' ∨ c = '\x7b') (ht : Bracketed rest (d + 2) t) : Bracketed rest (d + 1) s
  | closing {d : Nat} {c : Char} {s t : List Char} (hs : skipSpace s = c :: t)
    (hc : c = ']' ∨ c = '\x7d') (ht : Bracketed rest d t) : Bracketed rest (d + 1) s
  | mark {d : Nat} {c : Char} {s t : List Char} (hs : skipSpace s = c :: t)
    (hc : c = ',' ∨ c = ':') (ht : Bracketed rest (d + 1) t) : Bracketed rest (d + 1) s
  | string {d : Nat} {u s t : List Char} (hs : skipSpace s = '"' :: (u ++ '"' :: t))
    (hu : QuotedBody u) (ht : Bracketed rest (d + 1) t) : Bracketed rest (d + 1) s
  | word {d : Nat} {w s t : List Char} (hs : skipSpace s = w ++ t) (hw : BareWord w)
    (hends : Ends t) (ht : Bracketed rest (d + 1) t) : Bracketed rest (d + 1) s

inductive Shaped (rest s : List Char) : Prop
  | brackets {c : Char} {t : List Char} (hs : skipSpace s = c :: t) (hc : c = '[' ∨ c = '\x7b')
    (ht : Bracketed rest 1 t)
  | string {u : List Char} (hs : skipSpace s = '"' :: (u ++ '"' :: rest)) (hu : QuotedBody u)
  | word {w : List Char} (hs : skipSpace s = w ++ rest) (hw : BareWord w)

theorem skipSpace_cons_of_not_isSpace {c : Char} {s : List Char} (hc : isSpace c = false) :
    skipSpace (c :: s) = c :: s := by
  unfold skipSpace
  rw [List.dropWhile_cons_of_neg (by simp [hc])]

theorem skipSpace_append {s t : List Char} (hs : skipSpace s ≠ []) :
    skipSpace (s ++ t) = skipSpace s ++ t := by
  unfold skipSpace at hs ⊢
  rw [List.dropWhile_append, if_neg]
  simpa using hs

theorem Bracketed.congr {rest s s' : List Char} {d : Nat} (hs : skipSpace s' = skipSpace s)
    (h : Bracketed rest (d + 1) s) : Bracketed rest (d + 1) s' := by
  cases h with
  | opening h hc ht => exact .opening (hs.trans h) hc ht
  | closing h hc ht => exact .closing (hs.trans h) hc ht
  | mark h hc ht => exact .mark (hs.trans h) hc ht
  | string h hu ht => exact .string (hs.trans h) hu ht
  | word h hw hends ht => exact .word (hs.trans h) hw hends ht

theorem Ends.append {s : List Char} (h : Ends s) (tail : List Char) : Ends (s ++ tail) := by
  obtain ⟨c, t, hs, hc⟩ := h
  refine ⟨c, t ++ tail, ?_, hc⟩
  rw [skipSpace_append (by simp [hs]), hs, List.cons_append]

theorem Bracketed.append {rest s : List Char} {d : Nat} (h : Bracketed rest d s)
    (tail : List Char) : Bracketed (rest ++ tail) d (s ++ tail) := by
  induction h with
  | closed => exact .closed
  | opening hs hc _ ih =>
    refine .opening ?_ hc ih
    rw [skipSpace_append (by simp [hs]), hs, List.cons_append]
  | closing hs hc _ ih =>
    refine .closing ?_ hc ih
    rw [skipSpace_append (by simp [hs]), hs, List.cons_append]
  | mark hs hc _ ih =>
    refine .mark ?_ hc ih
    rw [skipSpace_append (by simp [hs]), hs, List.cons_append]
  | string hs hu _ ih =>
    refine .string ?_ hu ih
    rw [skipSpace_append (by simp [hs]), hs, List.cons_append, List.append_assoc, List.cons_append]
  | word hs hw hends _ ih =>
    refine .word ?_ hw (hends.append tail) ih
    obtain ⟨c, w, hc, -⟩ := hw.front
    rw [skipSpace_append (by simp [hs, hc]), hs, List.append_assoc]

theorem Bracketed.trans {rest t s : List Char} {d e : Nat} (h : Bracketed t e s)
    (ht : Bracketed rest d t) : Bracketed rest (e + d) s := by
  induction h with
  | closed => exact (Nat.zero_add d).symm ▸ ht
  | opening hs hc _ ih =>
    rw [Nat.add_right_comm] at ih ⊢
    exact .opening hs hc ih
  | closing hs hc _ ih =>
    rw [Nat.add_right_comm]
    exact .closing hs hc ih
  | mark hs hc _ ih =>
    rw [Nat.add_right_comm] at ih ⊢
    exact .mark hs hc ih
  | string hs hu _ ih =>
    rw [Nat.add_right_comm] at ih ⊢
    exact .string hs hu ih
  | word hs hw hends _ ih =>
    rw [Nat.add_right_comm] at ih ⊢
    exact .word hs hw hends ih

theorem Shaped.bracketed {rest t s : List Char} {d : Nat} (h : Shaped t s) (hends : Ends t)
    (ht : Bracketed rest (d + 1) t) : Bracketed rest (d + 1) s := by
  cases h with
  | brackets hs hc h =>
    have hboth := h.trans ht
    rw [Nat.add_comm 1] at hboth
    exact .opening hs hc hboth
  | string hs hu => exact .string hs hu ht
  | word hs hw => exact .word hs hw hends ht

theorem exists_eq_of_readUnit? {s t : List Char} {n : Nat} (h : readUnit? s = some (n, t)) :
    ∃ a b c d, s = a :: b :: c :: d :: t := by
  unfold readUnit? at h
  split at h
  . next a b c d s =>
    simp only [Option.map_eq_some_iff, Prod.mk.injEq] at h
    obtain ⟨_, -, -, rfl⟩ := h
    exact ⟨a, b, c, d, rfl⟩
  . contradiction

theorem quotedBody_of_readUnicode? {s t : List Char} {c : Char}
    (h : readUnicode? s = some (c, t)) :
    ∃ u, '\\' :: 'u' :: s = u ++ t ∧ ∀ u', QuotedBody u' → QuotedBody (u ++ u') := by
  unfold readUnicode? at h
  rw [Option.bind_eq_bind, Option.bind_eq_some_iff] at h
  obtain ⟨⟨high, s₁⟩, hhigh, h⟩ := h
  obtain ⟨a, b, c, d, rfl⟩ := exists_eq_of_readUnit? hhigh
  dsimp only at h
  split at h
  . split at h
    . next s₂ =>
      rw [Option.bind_eq_bind, Option.bind_eq_some_iff] at h
      obtain ⟨⟨low, s₃⟩, hlow, h⟩ := h
      obtain ⟨a', b', c', d', rfl⟩ := exists_eq_of_readUnit? hlow
      obtain rfl : s₃ = t := by
        dsimp only at h
        split at h
        . contradiction
        . rw [Option.bind_eq_bind, Option.bind_eq_some_iff] at h
          obtain ⟨x, -, h⟩ := h
          cases h
          rfl
      refine ⟨['\\', 'u', a, b, c, d, '\\', 'u', a', b', c', d'], rfl, ?_⟩
      intro u' hu'
      exact .unit (.unit hu')
    . contradiction
  . rw [Option.bind_eq_bind, Option.bind_eq_some_iff] at h
    obtain ⟨x, -, h⟩ := h
    cases h
    exact ⟨['\\', 'u', a, b, c, d], rfl, fun u' hu' => .unit hu'⟩

theorem quotedBody_of_readString? {n : Nat} {s t text : List Char}
    (h : readString? n s = some (text, t)) : ∃ u, QuotedBody u ∧ s = u ++ '"' :: t := by
  induction n generalizing s text with
  | zero => contradiction
  | succ n ih =>
    unfold readString? at h
    split at h
    . contradiction
    . cases h
      exact ⟨[], .nil, rfl⟩
    . next s =>
      rw [Option.bind_eq_bind, Option.bind_eq_some_iff] at h
      obtain ⟨⟨c, s₁⟩, hc, h⟩ := h
      rw [Option.bind_eq_bind, Option.bind_eq_some_iff] at h
      obtain ⟨⟨text', s₂⟩, htext, h⟩ := h
      cases h
      obtain ⟨u, hs, hu⟩ := quotedBody_of_readUnicode? hc
      obtain ⟨u', hu', rfl⟩ := ih htext
      exact ⟨u ++ u', hu u' hu', by rw [hs, List.append_assoc]⟩
    . next e s _ =>
      rw [Option.bind_eq_bind, Option.bind_eq_some_iff] at h
      obtain ⟨c, hc, h⟩ := h
      rw [Option.bind_eq_bind, Option.bind_eq_some_iff] at h
      obtain ⟨⟨text', s₂⟩, htext, h⟩ := h
      cases h
      obtain ⟨u', hu', rfl⟩ := ih htext
      exact ⟨'\\' :: e :: u', .escape (by simp [hc]) hu', rfl⟩
    . next c s hquote _ _ =>
      split at h
      . contradiction
      . next hc =>
        simp only [Option.map_eq_some_iff, Prod.mk.injEq] at h
        obtain ⟨⟨text', s₂⟩, htext, -, rfl⟩ := h
        obtain ⟨u', hu', rfl⟩ := ih htext
        have hescape : c ≠ '\\' := by
          rintro rfl
          simp at hc
        exact ⟨c :: u', .plain hquote hescape hu', rfl⟩

theorem eq_append_of_readWord? {word : String} {v v' : Value} {s t : List Char}
    (h : readWord? word v s = some (v', t)) : s = word.toList ++ t := by
  unfold readWord? at h
  simp only [Option.map_eq_some_iff, Prod.mk.injEq] at h
  obtain ⟨t', ht, -, rfl⟩ := h
  exact (List.isPrefixOf?_eq_some_iff_append_eq.mp ht).symm

theorem isWordChar_of_isDigit {c : Char} (h : c.isDigit = true) : isWordChar c = true := by
  simp [isWordChar, Char.isAlphanum, h]

theorem exists_eq_append_takeWhile_isDigit (s : List Char) :
    s = s.takeWhile Char.isDigit ++ s.dropWhile Char.isDigit
      ∧ ∀ c ∈ s.takeWhile Char.isDigit, isWordChar c = true := by
  refine ⟨List.takeWhile_append_dropWhile.symm, ?_⟩
  intro c hc
  exact isWordChar_of_isDigit (List.all_eq_true.mp List.all_takeWhile c hc)

theorem eq_append_of_readWhole? {s t digits : List Char} (h : readWhole? s = some (digits, t)) :
    s = digits ++ t ∧ (∀ c ∈ digits, c.isDigit = true) ∧ digits ≠ [] := by
  unfold readWhole? at h
  dsimp only at h
  split at h
  . contradiction
  . next hdigits =>
    cases h
    refine ⟨List.takeWhile_append_dropWhile.symm, List.all_eq_true.mp List.all_takeWhile, ?_⟩
    rintro hnil
    simp [hnil] at hdigits

theorem exists_append_of_readFraction? {s t : List Char} {f? : Option (List Char)}
    (h : readFraction? s = some (f?, t)) : ∃ w, s = w ++ t ∧ ∀ c ∈ w, isWordChar c = true := by
  unfold readFraction? at h
  split at h
  . next s =>
    dsimp only at h
    split at h
    . contradiction
    . cases h
      obtain ⟨hs, hall⟩ := exists_eq_append_takeWhile_isDigit s
      refine ⟨'.' :: s.takeWhile Char.isDigit, congrArg _ hs, ?_⟩
      rw [List.forall_mem_cons]
      exact ⟨by decide, hall⟩
  . cases h
    exact ⟨[], rfl, nofun⟩

theorem exists_append_of_takeSign (s : List Char) :
    ∃ w, s = w ++ (Numeral.takeSign s).2 ∧ ∀ c ∈ w, isWordChar c = true := by
  unfold Numeral.takeSign
  split
  . exact ⟨['-'], rfl, List.forall_mem_singleton.mpr (by decide)⟩
  . exact ⟨['+'], rfl, List.forall_mem_singleton.mpr (by decide)⟩
  . exact ⟨[], rfl, nofun⟩

theorem exists_append_of_readPower? {s t : List Char} {p? : Option Int}
    (h : readPower? s = some (p?, t)) : ∃ w, s = w ++ t ∧ ∀ c ∈ w, isWordChar c = true := by
  unfold readPower? at h
  split at h
  . next e s =>
    split at h
    . next he =>
      obtain ⟨w, hs, hw⟩ := exists_append_of_takeSign s
      obtain ⟨hs', hall⟩ := exists_eq_append_takeWhile_isDigit (Numeral.takeSign s).2
      dsimp only at h
      split at h
      . contradiction
      . cases h
        refine ⟨e :: (w ++ (Numeral.takeSign s).2.takeWhile Char.isDigit), ?_, ?_⟩
        . rw [List.cons_append, List.append_assoc, ← hs', ← hs]
        . rw [List.forall_mem_cons, List.forall_mem_append]
          refine ⟨?_, hw, hall⟩
          simp only [Bool.or_eq_true, beq_iff_eq] at he
          rcases he with rfl | rfl
          . decide
          . decide
    . cases h
      exact ⟨[], rfl, nofun⟩
  . cases h
    exact ⟨[], rfl, nofun⟩

theorem bareWord_of_readNumber? {s t : List Char} {n : Number} (h : readNumber? s = some (n, t)) :
    ∃ w, BareWord w ∧ s = w ++ t := by
  unfold readNumber? at h
  split at h
  next negative s' hsign =>
  simp only [Option.bind_eq_bind, Option.bind_eq_some_iff, Option.pure_def, Option.some.injEq,
    Prod.mk.injEq, Prod.exists] at h
  obtain ⟨whole, s₁, hwhole, _, s₂, hfraction, _, s₃, hpower, _, -, -, rfl⟩ := h
  obtain ⟨rfl, hdigits, hne⟩ := eq_append_of_readWhole? hwhole
  obtain ⟨w, rfl, hw⟩ := exists_append_of_readFraction? hfraction
  obtain ⟨w', rfl, hw'⟩ := exists_append_of_readPower? hpower
  obtain ⟨d, digits, rfl⟩ := List.exists_cons_of_ne_nil hne
  have hall : ∀ c ∈ d :: digits ++ (w ++ w'), isWordChar c = true := by
    rw [List.forall_mem_append, List.forall_mem_append]
    exact ⟨fun c hc => isWordChar_of_isDigit (hdigits c hc), hw, hw'⟩
  have hd : d.isDigit = true := hdigits d List.mem_cons_self
  split at hsign
  . cases hsign
    refine ⟨'-' :: (d :: digits ++ (w ++ w')), ⟨?_, _, _, rfl, .inr ⟨rfl, d, _, rfl, hd⟩⟩, by simp⟩
    rw [List.forall_mem_cons]
    exact ⟨by decide, hall⟩
  . cases hsign
    refine ⟨d :: digits ++ (w ++ w'), ⟨hall, d, _, rfl, .inl ?_⟩, by simp⟩
    simp [Char.isAlphanum, hd]

theorem bareWord_of_isAlphanum {w : List Char} (hne : w ≠ []) (hw : w.all Char.isAlphanum = true) :
    BareWord w := by
  rw [List.all_eq_true] at hw
  obtain ⟨c, s, rfl⟩ := List.exists_cons_of_ne_nil hne
  refine ⟨?_, c, s, rfl, .inl (hw c List.mem_cons_self)⟩
  intro x hx
  simp [isWordChar, hw x hx]

variable {α : Type}

def KeepsBrackets (read : Reader α) : Prop :=
  ∀ ⦃s x t⦄, read s = some (x, t) → ∀ ⦃rest d⦄, Ends t → Bracketed rest (d + 1) t →
    Bracketed rest (d + 1) s

theorem bracketed_of_readParts? {read : Reader α} (hread : KeepsBrackets read) {close : Char}
    (hclose : close = ']' ∨ close = '\x7d') {n : Nat} {s t : List Char} {xs : List α}
    (h : readParts? close read n s = some (xs, t)) {rest : List Char} {d : Nat}
    (ht : Bracketed rest d t) : Bracketed rest (d + 1) s := by
  induction n generalizing s xs with
  | zero => contradiction
  | succ n ih =>
    unfold readParts? at h
    rw [Option.bind_eq_bind, Option.bind_eq_some_iff] at h
    obtain ⟨⟨x, s₁⟩, hx, h⟩ := h
    dsimp only at h
    split at h
    . next s₂ hs₂ =>
      rw [Option.bind_eq_bind, Option.bind_eq_some_iff] at h
      obtain ⟨⟨xs', s₃⟩, hxs, h⟩ := h
      cases h
      exact hread hx ⟨_, _, hs₂, .inl rfl⟩ (.mark hs₂ (.inl rfl) (ih hxs))
    . next c s₂ _ hs₂ =>
      split at h
      . next hc =>
        cases h
        subst hc
        exact hread hx ⟨_, _, hs₂, .inr hclose⟩ (.closing hs₂ hclose ht)
      . contradiction
    . contradiction

theorem bracketed_of_readAll? {read : Reader α} (hread : KeepsBrackets read) {close : Char}
    (hclose : close = ']' ∨ close = '\x7d') {s t : List Char} {xs : List α}
    (h : readAll? close read s = some (xs, t)) {rest : List Char} {d : Nat}
    (ht : Bracketed rest d t) : Bracketed rest (d + 1) s := by
  unfold readAll? at h
  split at h
  . contradiction
  . next c s₁ hs₁ =>
    split at h
    . next hc =>
      cases h
      subst hc
      exact .closing hs₁ hclose ht
    . exact bracketed_of_readParts? hread hclose h ht

theorem keepsBrackets_readMember? {read : Reader Value} (hread : KeepsBrackets read) :
    KeepsBrackets (readMember? read) := by
  intro s x t h rest d hends ht
  unfold readMember? at h
  split at h
  . next s₁ hs₁ =>
    rw [Option.bind_eq_bind, Option.bind_eq_some_iff] at h
    obtain ⟨⟨key, s₂⟩, hkey, h⟩ := h
    obtain ⟨u, hu, rfl⟩ := quotedBody_of_readString? hkey
    dsimp only at h
    split at h
    . next s₃ hs₃ =>
      rw [Option.bind_eq_bind, Option.bind_eq_some_iff] at h
      obtain ⟨⟨v, s₄⟩, hv, h⟩ := h
      cases h
      exact .string hs₁ hu (.mark hs₃ (.inr rfl) (hread hv hends ht))
    . contradiction
  . contradiction

theorem shaped_of_readScalar? {s s' t : List Char} {v : Value}
    (h : readScalar? s' = some (v, t)) (hs : skipSpace s = s') : Shaped t s := by
  unfold readScalar? at h
  split at h
  . simp only [Option.map_eq_some_iff, Prod.mk.injEq, Prod.exists] at h
    obtain ⟨text, _, htext, -, rfl⟩ := h
    obtain ⟨u, hu, rfl⟩ := quotedBody_of_readString? htext
    exact .string hs hu
  . exact .word (hs.trans (eq_append_of_readWord? h))
      (bareWord_of_isAlphanum (by decide) (by decide))
  . exact .word (hs.trans (eq_append_of_readWord? h))
      (bareWord_of_isAlphanum (by decide) (by decide))
  . exact .word (hs.trans (eq_append_of_readWord? h))
      (bareWord_of_isAlphanum (by decide) (by decide))
  . simp only [Option.map_eq_some_iff, Prod.mk.injEq, Prod.exists] at h
    obtain ⟨n, _, hn, -, rfl⟩ := h
    obtain ⟨w, hw, heq⟩ := bareWord_of_readNumber? hn
    exact .word (hs.trans heq) hw

theorem shaped_of_readValue? {depth : Nat} {s t : List Char} {v : Value}
    (h : readValue? depth s = some (v, t)) : Shaped t s := by
  induction depth using Nat.strongRecOn generalizing s v t with
  | ind depth ih =>
    have hkeeps : ∀ {depth'}, depth = depth' + 1 → KeepsBrackets (readValue? depth') :=
      fun hdepth s v t h _ _ hends => (ih _ (by omega) h).bracketed hends
    rw [readValue?.eq_def] at h
    dsimp only at h
    split at h
    . contradiction
    . contradiction
    . next depth s₁ hs =>
      simp only [Option.map_eq_some_iff, Prod.mk.injEq, Prod.exists] at h
      obtain ⟨xs, _, hxs, -, rfl⟩ := h
      exact .brackets hs (.inl rfl) (bracketed_of_readAll? (hkeeps rfl) (.inl rfl) hxs .closed)
    . next depth s₁ hs =>
      simp only [Option.map_eq_some_iff, Prod.mk.injEq, Prod.exists] at h
      obtain ⟨xs, _, hxs, -, rfl⟩ := h
      exact .brackets hs (.inr rfl)
        (bracketed_of_readAll? (keepsBrackets_readMember? (hkeeps rfl)) (.inr rfl) hxs .closed)
    . exact shaped_of_readScalar? h rfl

theorem exists_quote_of_readScalar? {s t : List Char} {text : String}
    (h : readScalar? s = some (.string text, t)) : ∃ u, s = '"' :: u := by
  have hword : ∀ {word : String} {v : Value} {s : List Char}, (∀ text, v ≠ .string text) →
      readWord? word v s ≠ some (.string text, t) := by
    intro word v s hv h
    obtain ⟨t, -, heq⟩ := Option.map_eq_some_iff.mp h
    exact hv text (Prod.mk.inj heq).1
  unfold readScalar? at h
  split at h
  . next u => exact ⟨u, rfl⟩
  . exact absurd h (hword nofun)
  . exact absurd h (hword nofun)
  . exact absurd h (hword nofun)
  . simp at h

theorem exists_quote_of_readValue? {depth : Nat} {s t : List Char} {text : String}
    (h : readValue? depth s = some (.string text, t)) : ∃ u, skipSpace s = '"' :: u := by
  rw [readValue?.eq_def] at h
  dsimp only at h
  split at h
  . contradiction
  . contradiction
  . simp at h
  . simp at h
  . exact exists_quote_of_readScalar? h

theorem exists_shaped_of_parse? {text : String} {v : Value} (h : parse? text = some v) :
    ∃ rest, Shaped rest text.toList ∧ skipSpace rest = []
      ∧ ∀ s, v = .string s → ∃ u, skipSpace text.toList = '"' :: u := by
  unfold parse? at h
  split at h
  . next v' rest hread =>
    split at h
    . next hempty =>
      cases h
      refine ⟨rest, shaped_of_readValue? hread, List.isEmpty_iff.mp hempty, ?_⟩
      rintro s rfl
      exact exists_quote_of_readValue? hread
    . contradiction
  . contradiction

end Json

end TemplateCheck
