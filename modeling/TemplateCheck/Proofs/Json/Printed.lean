import TemplateCheck.Proofs.Json.Lexical

/-!
This module contains that the JSON reader takes what is printed for what it stands for: digits for
the number, a character or its escape for the character, and parts with commas between them for what
the parts denote.
-/

namespace TemplateCheck

namespace Json

theorem ofDigitChars_ge (digits : List Char) (n : Nat) : n ≤ Nat.ofDigitChars 10 digits n := by
  induction digits generalizing n with
  | nil => exact Nat.le_refl n
  | cons c digits ih =>
    have hstep : n ≤ 10 * n + (c.toNat - '0'.toNat) := by omega
    exact Nat.le_trans hstep (ih _)

theorem appendDigits_eq {digits : List Char} {n : Nat}
    (h : fitsWord (Nat.ofDigitChars 10 digits n) = true) :
    appendDigits n digits = (Nat.ofDigitChars 10 digits n, digits.length, []) := by
  induction digits generalizing n with
  | nil => rfl
  | cons c digits ih =>
    have hnext : fitsWord (10 * n + Numeral.digitValue c) = true := by
      have hle := ofDigitChars_ge digits (10 * n + Numeral.digitValue c)
      simp only [fitsWord, decide_eq_true_eq] at h ⊢
      exact Nat.lt_of_le_of_lt hle h
    unfold appendDigits
    rw [if_pos hnext, ih (n := 10 * n + Numeral.digitValue c) h]
    rfl

theorem head?_toDigits {n : Nat} (h : (Nat.toDigits 10 n).head? = some '0') : n = 0 := by
  have hone : ∀ m < 10, [m.digitChar].head? = some '0' → m = 0 := by decide
  induction n using Nat.strongRecOn with
  | ind n ih =>
    by_cases hn : n < 10
    . rw [Nat.toDigits_of_lt_base hn] at h
      exact hone n hn h
    . rw [Nat.toDigits_of_base_le (by decide) (by omega),
        List.head?_append_of_ne_nil _ Nat.toDigits_ne_nil] at h
      have := ih (n / 10) (by omega) h
      omega

theorem readWhole?_toDigits (n : Nat) {c : Char} (hc : c.isDigit = false) (s : List Char) :
    readWhole? (Nat.toDigits 10 n ++ c :: s) = some (Nat.toDigits 10 n, c :: s) := by
  have hdigits : ∀ d ∈ Nat.toDigits 10 n, d.isDigit = true := fun _ =>
    Numeral.isDigit_of_mem_toDigits
  have htake : (Nat.toDigits 10 n ++ c :: s).takeWhile Char.isDigit = Nat.toDigits 10 n := by
    rw [List.takeWhile_append_of_pos hdigits, List.takeWhile_cons_of_neg (by simp [hc]),
      List.append_nil]
  have hdrop : (Nat.toDigits 10 n ++ c :: s).dropWhile Char.isDigit = c :: s := by
    rw [List.dropWhile_append_of_pos hdigits, List.dropWhile_cons_of_neg (by simp [hc])]
  have hzero : (Nat.toDigits 10 n).head? = some '0' → Nat.toDigits 10 n = ['0'] := by
    intro h
    rw [head?_toDigits h]
    rfl
  unfold readWhole?
  dsimp only
  rw [htake, hdrop, if_neg]
  simpa [Nat.toDigits_ne_nil] using hzero

theorem readNumber?_toDigits {n : Nat} (hn : fitsWord n = true) {c : Char}
    (hc : c = ',' ∨ c = '\n') (s : List Char) :
    readNumber? (Nat.toDigits 10 n ++ c :: s) = some (.integer n, c :: s) := by
  have hvalue : Nat.ofDigitChars 10 (Nat.toDigits 10 n) 0 = n := Nat.ofDigitChars_ten_toDigits
  have hnumber : numberOf? false (Nat.toDigits 10 n) none none = some (.integer n) := by
    unfold numberOf?
    rw [appendDigits_eq (by rwa [hvalue]), hvalue]
    rfl
  obtain ⟨d, digits, hd⟩ := List.exists_cons_of_ne_nil (Nat.toDigits_ne_nil (b := 10) (n := n))
  have hsign : d ≠ '-' := by
    rintro rfl
    have := Numeral.isDigit_of_mem_toDigits (n := n) (hd ▸ List.mem_cons_self)
    contradiction
  have hstop : c.isDigit = false ∧ readFraction? (c :: s) = some (none, c :: s)
      ∧ readPower? (c :: s) = some (none, c :: s) := by
    rcases hc with rfl | rfl
    . exact ⟨rfl, rfl, rfl⟩
    . exact ⟨rfl, rfl, rfl⟩
  have hwhole := readWhole?_toDigits n hstop.1 s
  unfold readNumber?
  rw [hd, List.cons_append] at hwhole ⊢
  split
  next negative t hsplit =>
  have : (negative, t) = (false, d :: (digits ++ c :: s)) := by
    rw [← hsplit]
    split
    . next h => exact absurd (List.cons.inj h).1 hsign
    . rfl
  cases this
  simp only [hwhole, hstop.2.1, hstop.2.2, ← hd, hnumber, Option.bind_eq_bind, Option.bind_some,
    Option.pure_def]

theorem length_le_length_flatMap {α β : Type} {f : α → List β} (hf : ∀ x, f x ≠ [])
    (xs : List α) : xs.length ≤ (xs.flatMap f).length := by
  induction xs with
  | nil => exact Nat.le_refl 0
  | cons x xs ih =>
    have := List.length_pos_of_ne_nil (hf x)
    simp only [List.flatMap_cons, List.length_append, List.length_cons]
    omega

/--
Whether a reader takes a text for `x` where a comma or a new line follows.
-/
def Denotes {α : Type} (read : Reader α) (text : List Char) (x : α) : Prop :=
  ∀ c s, c = ',' ∨ c = '\n' → read (text ++ c :: s) = some (x, c :: s)

section Parts

variable {α β : Type} {read : Reader α} {close : Char} {text : β → List Char} {value : β → α}

def parts (text : β → List Char) (x : β) (more : List β) : List Char :=
  text x ++ more.flatMap fun y => ',' :: text y

theorem parts_cons (x y : β) (more : List β) :
    parts text x (y :: more) = text x ++ ',' :: parts text y more := by
  simp [parts]

theorem readParts?_parts (hclose : close ≠ ',') {x : β} {more : List β}
    (h : ∀ y ∈ x :: more, Denotes read (text y) (value y)) {n : Nat} (hn : more.length < n)
    {tail rest : List Char} (htail : skipSpace tail = close :: rest) :
    readParts? close read n (parts text x more ++ '\n' :: tail)
      = some ((x :: more).map value, rest) := by
  induction more generalizing n x with
  | nil =>
    rw [List.forall_mem_singleton] at h
    obtain ⟨n, rfl⟩ := Nat.exists_eq_succ_of_ne_zero (Nat.ne_of_gt hn)
    have hskip : skipSpace ('\n' :: tail) = close :: rest := htail
    unfold parts readParts?
    rw [List.flatMap_nil, List.append_nil, h _ _ (.inr rfl)]
    dsimp only [Option.bind_eq_bind, Option.bind_some]
    rw [hskip]
    split
    . next h => exact absurd (List.cons.inj h).1 hclose
    . next h =>
      cases h
      rw [if_pos rfl]
      rfl
    . contradiction
  | cons y more ih =>
    rw [List.forall_mem_cons] at h
    obtain ⟨n, rfl⟩ := Nat.exists_eq_succ_of_ne_zero (Nat.ne_of_gt (Nat.zero_lt_of_lt hn))
    unfold readParts?
    rw [parts_cons, List.append_assoc, List.cons_append, h.1 _ _ (.inl rfl)]
    change (readParts? close read n _ >>= _) = _
    rw [ih h.2 (Nat.lt_of_succ_lt_succ hn)]
    rfl

theorem readAll?_parts (hclose : close ≠ ',') {x : β} {more : List β}
    (h : ∀ y ∈ x :: more, Denotes read (text y) (value y))
    (hx : ∃ c t, skipSpace (text x) = c :: t ∧ c ≠ close)
    {tail rest : List Char} (htail : skipSpace tail = close :: rest) :
    readAll? close read (parts text x more ++ '\n' :: tail)
      = some ((x :: more).map value, rest) := by
  obtain ⟨c, t, hskip, hc⟩ := hx
  have hfront : skipSpace (parts text x more ++ '\n' :: tail)
      = c :: (t ++ ((more.flatMap fun y => ',' :: text y) ++ '\n' :: tail)) := by
    unfold parts
    rw [List.append_assoc, skipSpace_append (by simp [hskip]), hskip, List.cons_append]
  have hlength : more.length ≤ (more.flatMap fun y => ',' :: text y).length :=
    length_le_length_flatMap (fun y => List.cons_ne_nil _ _) more
  unfold readAll?
  rw [hfront]
  dsimp only
  rw [if_neg hc]
  apply readParts?_parts hclose h _ htail
  simp only [List.length_cons, List.length_append]
  omega

end Parts

section Text

variable {n : Nat} {c : Char} {s t : List Char}

theorem readString?_escape {e : Char} (h : escapes.lookup e = some c) :
    readString? (n + 1) ('\\' :: e :: s)
      = (readString? n s).map fun (text, t) => (c :: text, t) := by
  have he : e ≠ 'u' := by
    rintro rfl
    contradiction
  conv_lhs => unfold readString?
  split
  . contradiction
  . next h' => cases h'
  . next h' => exact absurd (List.cons.inj (List.cons.inj h').2).1 he
  . next h' =>
    cases h'
    rw [h]
    cases readString? n s <;> rfl
  . next hplain h' =>
    cases h'
    exact (hplain e s rfl rfl).elim

theorem readString?_unicode (h : readUnicode? s = some (c, t)) :
    readString? (n + 1) ('\\' :: 'u' :: s)
      = (readString? n t).map fun (text, t) => (c :: text, t) := by
  change (readUnicode? s >>= _) = _
  rw [h]
  change (readString? n t >>= _) = _
  cases readString? n t <;> rfl

theorem readString?_plain (hquote : c ≠ '"') (hescape : c ≠ '\\') (hcontrol : ¬ c < ' ') :
    readString? (n + 1) (c :: s) = (readString? n s).map fun (text, t) => (c :: text, t) := by
  conv_lhs => unfold readString?
  split
  . contradiction
  . next h' => exact absurd (List.cons.inj h').1 hquote
  . next h' => exact absurd (List.cons.inj h').1 hescape
  . next h' => exact absurd (List.cons.inj h').1 hescape
  . next h' =>
    cases h'
    rw [if_neg (by simp [hcontrol, hescape])]

theorem charOfCode?_toNat (c : Char) : Text.charOfCode? c.toNat = some c :=
  dif_pos c.valid

theorem readUnicode?_hexDigits (hc : c < ' ') :
    readUnicode? (Text.hexDigits 4 c.toNat ++ s) = some (c, s) := by
  have hdigits : ∀ n < 32, (Text.hexDigits 4 n).length = 4
      ∧ Text.hexNumber? (Text.hexDigits 4 n) = some n := by decide
  have hlt : c.toNat < 32 := hc
  obtain ⟨hlength, hnumber⟩ := hdigits c.toNat hlt
  obtain ⟨x, y, z, w, hfour⟩ := List.length_eq_four.mp hlength
  have hunit : readUnit? (Text.hexDigits 4 c.toNat ++ s) = some (c.toNat, s) := by
    rw [hfour] at hnumber ⊢
    change (Text.hexNumber? [x, y, z, w]).map _ = _
    rw [hnumber]
    rfl
  have hsmall : (0xD800 ≤ c.toNat && c.toNat < 0xDC00) = false := by
    have : ¬ 0xD800 ≤ c.toNat := by omega
    simp [this]
  unfold readUnicode?
  rw [hunit]
  dsimp only [Option.bind_eq_bind, Option.bind_some]
  rw [hsmall, charOfCode?_toNat]
  rfl

end Text

section Value

variable {c : Char} {s t : List Char}

theorem readValue?_eq_readScalar? (hs : skipSpace s = c :: t) (harray : c ≠ '[')
    (hobject : c ≠ '\x7b') (d : Nat) : readValue? d s = readScalar? (c :: t) := by
  rw [readValue?.eq_def]
  dsimp only
  rw [hs]
  split
  . next h => exact absurd (List.cons.inj h).1 harray
  . next h => exact absurd (List.cons.inj h).1 hobject
  . next h => exact absurd (List.cons.inj h).1 harray
  . next h => exact absurd (List.cons.inj h).1 hobject
  . rfl

theorem readValue?_array (hs : skipSpace s = '[' :: t) (d : Nat) :
    readValue? (d + 1) s
      = (readAll? ']' (readValue? d) t).map fun (xs, s) => (.array xs, s) := by
  rw [readValue?.eq_def]
  dsimp only
  rw [hs]
  rfl

theorem readValue?_object (hs : skipSpace s = '\x7b' :: t) (d : Nat) :
    readValue? (d + 1) s
      = (readAll? '\x7d' (readMember? (readValue? d)) t).map fun (es, s) =>
          (.object (Entries.ofPairs es), s) := by
  rw [readValue?.eq_def]
  dsimp only
  rw [hs]
  rfl

end Value

end Json

end TemplateCheck
