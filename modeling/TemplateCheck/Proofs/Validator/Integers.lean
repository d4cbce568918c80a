import TemplateCheck.Proofs.Decimal.Integer
import TemplateCheck.Proofs.Path.Route
import TemplateCheck.Proofs.Validator.Verdict

/-!
This module contains the verdict on an integer under a key where the template has an integer under
the same key. Integers are compared by the floating point values nearest to them, so only integers
of at most 53 binary digits are told from all others.
-/

namespace TemplateCheck

namespace Data

theorem keysDistinct_single (k : String) {c : Data} (hc : c.isScalar = true) :
    (mapping [(k, c)]).keysDistinct = true := by
  rw [keysDistinct_mapping_iff, List.forall_mem_singleton]
  exact ⟨List.pairwise_singleton _ k, keysDistinct_of_isScalar hc⟩

theorem step?_single (k : String) (c : Data) : (mapping [(k, c)]).step? (.key k) = some c := by
  change (if k = k then some c else none) = some c
  rw [if_pos rfl]

theorem eq_of_step?_single {k : String} {c e : Data} {b : Branch}
    (h : (mapping [(k, c)]).step? b = some e) : e = c := by
  cases b with
  | index i => contradiction
  | key j =>
    have hmem := Entries.mem_of_get?_eq_some h
    rw [List.mem_singleton, Prod.mk.injEq] at hmem
    exact hmem.2

theorem agrees_toString_iff {m n : Int} (hm : fitsSigned m = true) (hn : fitsSigned n = true) :
    (number (.integer n)).Agrees (toString m)
      ↔ (Binary64.ofInt m).equal (Binary64.ofInt n) = true := by
  rw [agrees_iff_of_looksLikeNumber (Path.looksLikeNumber_toString m) (Binary64.read?_toString hm)]
  change numberEquals (.ofInt m) (toString n) = true ↔ _
  unfold numberEquals
  rw [Path.looksLikeNumber_toString n, Binary64.read?_toString hn, Binary64.equal_comm]
  rfl

end Data

namespace Path

theorem selectsAny_ofLeaf_single_iff (k s : String) {c : Data} (hc : c.isScalar = true) :
    (ofLeaf ([.key k], .scalar s)).selectsAny (.mapping [(k, c)]) = true ↔ c.Agrees s := by
  rw [selectsAny_ofLeaf_iff (Data.keysDistinct_single k hc) (List.cons_ne_nil _ _)]
  rw [Data.exists_reaches_keys_iff (by simp)]
  constructor
  . intro ⟨p, e, hat, hmeets⟩
    -- the only node below the root is the scalar, and nothing lies below that
    have hec : e = c := by
      cases p with
      | nil =>
        rw [List.nil_append, Data.at?_cons, Data.step?_single] at hat
        exact (Option.some.inj hat).symm
      | cons b p =>
        rw [List.cons_append, Data.at?_cons, Option.bind_eq_some_iff] at hat
        obtain ⟨n, hn, hat⟩ := hat
        rw [Data.eq_of_step?_single hn] at hat
        have hnil := Data.eq_nil_of_at?_append (p := []) (Data.at?_nil c) hc hat
        simp at hnil
    rw [hec] at hmeets
    rcases hmeets with hagrees | ⟨b, e, hb, _⟩
    . exact hagrees
    . rw [Data.step?_eq_none_of_isScalar hc] at hb
      contradiction
  . intro hagrees
    refine ⟨[], c, ?_, .inl hagrees⟩
    rw [List.nil_append, Data.at?_cons, Data.step?_single]
    exact Data.at?_nil c

end Path

namespace Validator

/--
An integer under a key is accepted where the template has an integer under the same key just if both
are nearest to the same floating point value. This tells two integers apart if one of them has at
most 53 binary digits.
-/
theorem validateOne_integer {v : Validator} (hv : v.paths = []) (hstrict : v.strict = true)
    (k : String) {m n : Int} (hm : fitsSigned m = true) (hn : fitsSigned n = true) :
    ∃ verdict, ((v.load (.mapping [(k, .scalar (toString m))])).validateOne Matcher.byPath
        (.mapping [(k, .number (.integer n))])).run.run () = (.ok verdict, ())
      ∧ (verdict = true ↔ (Binary64.ofInt m).equal (Binary64.ofInt n) = true)
      ∧ (m.natAbs < 2 ^ 53 ∨ n.natAbs < 2 ^ 53 → (verdict = true ↔ m = n)) := by
  have hverdict : (Template.mapping [(k, .scalar (toString m))]).leaves.all
      (fun l => (Path.ofLeaf l).selectsAny (.mapping [(k, .number (.integer n))])) = true
        ↔ (Binary64.ofInt m).equal (Binary64.ofInt n) = true := by
    change (_ && true) = true ↔ _
    rw [Bool.and_true, Path.selectsAny_ofLeaf_single_iff k (toString m) rfl]
    exact Data.agrees_toString_iff hm hn
  refine ⟨_, validateOne_load hv rfl _, ?_⟩
  rw [if_pos hstrict]
  refine ⟨hverdict, ?_⟩
  intro hexact
  rw [hverdict, Binary64.equal_ofInt_iff hexact]

theorem validateOne_integer_largest_exact :
    (((⟨{}, true, []⟩ : Validator).load
        (.mapping [("id", .scalar (toString (9007199254740992 : Int)))])).validateOne Matcher.byPath
      (.mapping [("id", .number (.integer 9007199254740991))])).run.run () = (.ok false, ()) := by
  obtain ⟨verdict, hrun, _, hdistinct⟩ := validateOne_integer (v := ⟨{}, true, []⟩) rfl rfl "id"
    (m := 9007199254740992) (n := 9007199254740991) rfl rfl
  have hverdict : verdict = false := by
    rw [← Bool.not_eq_true, hdistinct (.inr (by decide))]
    decide
  rw [hverdict] at hrun
  exact hrun

theorem validateOne_integer_rounded :
    (9007199254740993 : Int) ≠ 9007199254740992
      ∧ fitsSigned 9007199254740993 = true ∧ fitsSigned 9007199254740992 = true
      ∧ (((⟨{}, true, []⟩ : Validator).load
          (.mapping [("id", .scalar (toString (9007199254740993 : Int)))])).validateOne
        Matcher.byPath (.mapping [("id", .number (.integer 9007199254740992))])).run.run ()
          = (.ok true, ()) := by
  refine ⟨by decide, rfl, rfl, ?_⟩
  rw [validateOne_load rfl rfl]
  rfl

end Validator

end TemplateCheck
