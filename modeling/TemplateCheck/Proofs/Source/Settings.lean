import TemplateCheck.Outcome
import TemplateCheck.Source.Load

/-!
This module contains the files from which no settings can be loaded: what is wrong with them, and
that the loading fails for these faults and for no other reason.
-/

namespace TemplateCheck

namespace Settings

inductive WrongKind (t : Toml.Table) : Prop where
  | strict {v : Toml.Value} (hv : t.get? "strict_mode".toList = some v) (h : ∀ b, v ≠ .boolean b)
  | wildcard {v : Toml.Value} (hv : t.get? "wildcard".toList = some v) (h : ∀ s, v ≠ .string s)
  | quoteAllKeys {v : Toml.Value} (hv : t.get? "quote_all_keys".toList = some v)
    (h : ∀ b, v ≠ .boolean b)

inductive Faulty (text : String) : Prop where
  | malformed (h : Toml.parse? text = none)
  | wrongKind {t : Toml.Table} (ht : Toml.parse? text = some t) (h : WrongKind t)
  | emptyWildcard {t : Toml.Table} (ht : Toml.parse? text = some t)
    (h : t.get? "wildcard".toList = some (.string []))

variable {t : Toml.Table}

theorem boolean?_eq_none_iff {key : String} {missing : Bool} :
    boolean? t key missing = none ↔ ∃ v, t.get? key.toList = some v ∧ ∀ b, v ≠ .boolean b := by
  unfold boolean?
  cases t.get? key.toList with
  | none => simp
  | some v => cases v <;> simp

theorem string?_eq_none_iff {key missing : String} :
    string? t key missing = none ↔ ∃ v, t.get? key.toList = some v ∧ ∀ s, v ≠ .string s := by
  unfold string?
  cases t.get? key.toList with
  | none => simp
  | some v => cases v <;> simp

theorem ofTable?_eq (t : Toml.Table) :
    ofTable? t = (boolean? t "strict_mode" false).bind fun strict =>
      (string? t "wildcard" "*").bind fun wildcard =>
        (boolean? t "quote_all_keys" false).bind fun quoteAllKeys =>
          some ⟨strict, wildcard, quoteAllKeys⟩ := rfl

theorem ofTable?_eq_none_iff : ofTable? t = none ↔ WrongKind t := by
  have hnone : ofTable? t = none ↔ boolean? t "strict_mode" false = none
      ∨ string? t "wildcard" "*" = none ∨ boolean? t "quote_all_keys" false = none := by
    rw [ofTable?_eq]
    cases boolean? t "strict_mode" false with
    | none => simp
    | some strict =>
      cases string? t "wildcard" "*" with
      | none => simp
      | some wildcard => cases boolean? t "quote_all_keys" false <;> simp
  rw [hnone, boolean?_eq_none_iff, string?_eq_none_iff, boolean?_eq_none_iff]
  constructor
  . rintro (⟨v, hv, h⟩ | ⟨v, hv, h⟩ | ⟨v, hv, h⟩)
    . exact .strict hv h
    . exact .wildcard hv h
    . exact .quoteAllKeys hv h
  . intro h
    cases h with
    | strict hv h => exact .inl ⟨_, hv, h⟩
    | wildcard hv h => exact .inr (.inl ⟨_, hv, h⟩)
    | quoteAllKeys hv h => exact .inr (.inr ⟨_, hv, h⟩)

theorem wildcard_eq_empty_iff {s : Settings} (hs : ofTable? t = some s) :
    s.wildcard = "" ↔ t.get? "wildcard".toList = some (.string []) := by
  have hwildcard : string? t "wildcard" "*" = some s.wildcard := by
    rw [ofTable?_eq] at hs
    obtain ⟨strict, -, hs⟩ := Option.bind_eq_some_iff.mp hs
    obtain ⟨wildcard, hwildcard, hs⟩ := Option.bind_eq_some_iff.mp hs
    obtain ⟨quoteAllKeys, -, hs⟩ := Option.bind_eq_some_iff.mp hs
    cases hs
    exact hwildcard
  unfold string? at hwildcard
  cases hv : t.get? "wildcard".toList with
  | none =>
    rw [hv, Option.some.injEq] at hwildcard
    simp [← hwildcard]
  | some v =>
    rw [hv] at hwildcard
    cases v with
    | string text =>
      rw [Option.some.injEq] at hwildcard
      simp [← hwildcard]
    | _ => contradiction

theorem exists_parse_eq_error_iff {text : String} :
    (∃ e, parse text = .error e) ↔ Faulty text := by
  unfold parse
  constructor
  . intro ⟨e, he⟩
    cases ht : Toml.parse? text with
    | none => exact .malformed ht
    | some t =>
      rw [ht, Option.bind_some] at he
      cases hs : ofTable? t with
      | none => exact .wrongKind ht (ofTable?_eq_none_iff.mp hs)
      | some s =>
        rw [hs] at he
        dsimp only at he
        split at he
        . next hempty =>
          rw [String.isEmpty_iff, wildcard_eq_empty_iff hs] at hempty
          exact .emptyWildcard ht hempty
        . contradiction
  . intro h
    cases h with
    | malformed ht =>
      rw [ht]
      exact ⟨.malformed, rfl⟩
    | wrongKind ht h =>
      rw [ht, Option.bind_some, ofTable?_eq_none_iff.mpr h]
      exact ⟨.malformed, rfl⟩
    | @emptyWildcard t ht h =>
      rw [ht, Option.bind_some]
      cases hs : ofTable? t with
      | none => exact ⟨.malformed, rfl⟩
      | some s =>
        rw [← wildcard_eq_empty_iff hs, ← String.isEmpty_iff] at h
        exact ⟨.emptyWildcard, if_pos h⟩

theorem wildcard_ne_empty_of_parse {text : String} {s : Settings} (h : parse text = .ok s) :
    s.wildcard ≠ "" := by
  unfold parse at h
  split at h
  . contradiction
  . split at h
    . contradiction
    . next hempty =>
      cases h
      rwa [Bool.not_eq_true, String.isEmpty_eq_false_iff] at hempty

end Settings

namespace Source

inductive Faulty : Entry → Prop where
  | encoding {bytes : List UInt8} (h : Text.ofUtf8? bytes = none) : Faulty (.file bytes)
  | text {bytes : List UInt8} {text : String} (htext : Text.ofUtf8? bytes = some text)
    (h : Settings.Faulty text) : Faulty (.file bytes)

theorem exists_settingsOf_eq_error_iff {name : String} {entry : Entry} :
    (∃ e, settingsOf name entry = .error e)
      ↔ entry = .missing ∨ entry = .directory ∨ Faulty entry := by
  unfold settingsOf textOf?
  cases entry with
  | missing => exact ⟨fun _ => .inl rfl, fun _ => ⟨_, rfl⟩⟩
  | directory => exact ⟨fun _ => .inr (.inl rfl), fun _ => ⟨_, rfl⟩⟩
  | file bytes =>
    dsimp only
    cases htext : Text.ofUtf8? bytes with
    | none => exact ⟨fun _ => .inr (.inr (.encoding htext)), fun _ => ⟨_, rfl⟩⟩
    | some text =>
      change (∃ e, (Settings.parse text).mapError (Error.settings name) = .error e) ↔ _
      rw [Outcome.exists_mapError_eq_error_iff, Settings.exists_parse_eq_error_iff]
      constructor
      . intro h
        exact .inr (.inr (.text htext h))
      . rintro (h | h | h)
        . contradiction
        . contradiction
        . cases h with
          | encoding h =>
            rw [htext] at h
            contradiction
          | text htext' h =>
            rw [htext] at htext'
            cases htext'
            exact h

theorem wildcard_ne_empty_of_settingsOf {name : String} {entry : Entry} {s : Settings}
    (h : settingsOf name entry = .ok s) : s.wildcard ≠ "" := by
  obtain ⟨text, -, h⟩ := Outcome.bind_eq_ok_iff.mp h
  rw [Outcome.mapError_eq_ok_iff] at h
  exact Settings.wildcard_ne_empty_of_parse h

end Source

end TemplateCheck
