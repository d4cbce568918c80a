import Mathlib.Data.List.Infix
import Mathlib.Order.Bounds.Basic
import TemplateCheck.Compile.Trail
import TemplateCheck.Outcome

/-!
This module contains what operations on a trail lead to, in whatever order they come: when they
stop, what the counters count, and to which text a way up returns.
-/

namespace TemplateCheck

namespace Trail

def Grounded (ops : List Operation) : Prop :=
  ∀ p, p <+: ops → p.count .rise ≤ p.count .dive

instance : DecidablePred Grounded := fun ops =>
  decidable_of_iff (∀ p ∈ ops.inits, p.count .rise ≤ p.count .dive) (by simp [Grounded])

structure Balanced (ops : List Operation) : Prop where
  grounded : Grounded ops
  count_eq : ops.count .rise = ops.count .dive

/--
The condition that a way up behind the operations `ops` belongs to the way down behind `before`:
what is between the two is balanced.
-/
def Matches (ops before : List Operation) : Prop :=
  ∃ inside, ops = before ++ .dive :: inside ∧ Balanced inside

def depths (ops : List Operation) : Set Nat :=
  { d | ∃ p t, p <+: ops ∧ performAll p {} = .ok t ∧ t.depth = d }

/--
The texts to save: for every way down without its way up, the innermost first, the text that was
written before it.
-/
inductive Saves : List Operation → List String → Prop where
  | top {ops : List Operation} (h : Balanced ops) : Saves ops []
  | within {before inside : List Operation} {texts : List String} {t : Trail}
      (h : Saves before texts) (ht : performAll before {} = .ok t) (hinside : Balanced inside) :
      Saves (before ++ .dive :: inside) (t.text :: texts)

structure Counted (ops : List Operation) (t : Trail) : Prop where
  length_saved : t.saved.length = t.depth
  enters_eq_add : t.tally.enters = t.tally.leaves + t.depth
  enters_eq : t.tally.enters = ops.count .dive
  leaves_eq : t.tally.leaves = ops.count .rise

structure Faithful (ops : List Operation) (t : Trail) : Prop extends Counted ops t where
  isGreatest : IsGreatest (depths ops) t.tally.maxDepth
  saves : Saves ops t.saved

variable {ops inside before a b : List Operation} {o : Operation} {t u : Trail} {stop : Stop}

theorem grounded_nil : Grounded [] := by
  intro p hp
  rw [List.prefix_nil.mp hp]
  simp

theorem grounded_concat_iff :
    Grounded (ops ++ [o])
      ↔ Grounded ops ∧ (ops ++ [o]).count .rise ≤ (ops ++ [o]).count .dive := by
  unfold Grounded
  simp only [List.prefix_concat_iff, forall_eq_or_imp]
  exact and_comm

theorem Grounded.dive_cons (h : Grounded ops) : Grounded (.dive :: ops) := by
  intro p hp
  rcases List.prefix_cons_iff.mp hp with rfl | ⟨q, rfl, hq⟩
  . simp
  . have := h q hq
    simp only [List.count_cons_self, List.count_cons_of_ne, ne_eq, reduceCtorEq, not_false_iff]
    omega

namespace Balanced

theorem nil : Balanced [] :=
  ⟨grounded_nil, rfl⟩

theorem append (ha : Balanced a) (hb : Balanced b) : Balanced (a ++ b) where
  grounded := by
    intro p hp
    rcases List.prefix_or_prefix_of_prefix hp (List.prefix_append a b) with hpa | ⟨q, rfl⟩
    . exact ha.grounded p hpa
    . -- what reaches into `b` has all of `a` behind it, which leaves the level as it is
      rw [List.prefix_append_right_inj] at hp
      have := hb.grounded q hp
      have := ha.count_eq
      simp only [List.count_append]
      omega
  count_eq := by
    simp only [List.count_append, ha.count_eq, hb.count_eq]

theorem singleton (hdive : o ≠ .dive) (hrise : o ≠ .rise) : Balanced [o] where
  grounded := by
    rw [← List.nil_append [o], grounded_concat_iff]
    simp [grounded_nil, hdive, hrise]
  count_eq := by
    simp [hdive, hrise]

theorem wrap (h : Balanced ops) : Balanced (.dive :: (ops ++ [.rise])) where
  grounded := by
    rw [← List.cons_append, grounded_concat_iff]
    refine ⟨h.grounded.dive_cons, ?_⟩
    simp [h.count_eq]
  count_eq := by
    simp [h.count_eq]

theorem not_append_dive (h : Balanced (a ++ .dive :: ops)) : ¬ Balanced ops := by
  intro hops
  have hlevel := h.grounded a (List.prefix_append a _)
  have htotal := h.count_eq
  simp only [List.count_append, List.count_cons_self, List.count_cons_of_ne, ne_eq, reduceCtorEq,
    not_false_iff, hops.count_eq] at htotal
  omega

theorem eq_nil_of_dive_cons {x : List Operation} (ha : Balanced a) (hb : Balanced b)
    (h : .dive :: a = x ++ .dive :: b) : x = [] := by
  rcases List.cons_eq_append_iff.mp h with ⟨rfl, -⟩ | ⟨y, rfl, rfl⟩
  . rfl
  . exact absurd hb ha.not_append_dive

end Balanced

theorem Matches.unique (ha : Matches ops a) (hb : Matches ops b) : a = b := by
  obtain ⟨i, rfl, hi⟩ := ha
  obtain ⟨j, heq, hj⟩ := hb
  rcases List.append_eq_append_iff.mp heq with ⟨x, rfl, hx⟩ | ⟨x, rfl, hx⟩
  . rw [hi.eq_nil_of_dive_cons hj hx, List.append_nil]
  . rw [hj.eq_nil_of_dive_cons hi hx, List.append_nil]

namespace Saves

variable {s : String} {texts : List String}

theorem append (h : Saves a texts) (hb : Balanced b) : Saves (a ++ b) texts := by
  cases h with
  | top h => exact .top (h.append hb)
  | within h ht hinside =>
    rw [List.append_assoc, List.cons_append]
    exact .within h ht (hinside.append hb)

theorem concat_dive (h : Saves ops texts) (ht : performAll ops {} = .ok t) :
    Saves (ops ++ [.dive]) (t.text :: texts) :=
  .within h ht .nil

theorem exists_matches (h : Saves ops (s :: texts)) :
    ∃ before t, Matches ops before ∧ performAll before {} = .ok t ∧ t.text = s
      ∧ Saves before texts := by
  cases h with
  | within h ht hinside => exact ⟨_, _, ⟨_, rfl, hinside⟩, ht, rfl, h⟩

theorem concat_rise (h : Saves ops (s :: texts)) : Saves (ops ++ [.rise]) texts := by
  obtain ⟨before, t, ⟨inside, rfl, hinside⟩, -, -, hbefore⟩ := h.exists_matches
  rw [List.append_assoc]
  exact hbefore.append hinside.wrap

end Saves

theorem eq_of_checked (h : t.checked = .ok u) : t = u := by
  unfold checked at h
  split at h
  . exact Except.ok.inj h
  . contradiction

theorem perform_cases (h : perform o t = .ok u) :
    (∃ s, o = .append s ∧ u = t.append s)
      ∨ (o = .dive ∧ u = t.dive)
      ∨ (o = .rise ∧ t.rise? = some u)
      ∨ (∃ slot, o = .setSlot slot ∧ u = t.setSlot slot) := by
  cases o with
  | append s => exact .inl ⟨s, rfl, (Except.ok.inj h).symm⟩
  | dive => exact .inr (.inl ⟨rfl, (eq_of_checked h).symm⟩)
  | setSlot slot => exact .inr (.inr (.inr ⟨slot, rfl, (Except.ok.inj h).symm⟩))
  | rise =>
    simp only [perform] at h
    split at h
    . contradiction
    . next up hup =>
      split at h
      . contradiction
      . exact .inr (.inr (.inl ⟨rfl, by rw [hup, eq_of_checked h]⟩))

theorem perform_eq_error_iff (ht : t.saved.length = t.depth) :
    perform o t = .error stop ↔ o = .rise ∧ t.depth = 0 ∧ stop = .unmatched 0 := by
  cases o with
  | append s => simp [perform]
  | setSlot slot => simp [perform]
  | dive => simp [perform, checked, dive, ht]
  | rise =>
    simp only [perform, rise?]
    cases hsaved : t.saved with
    | nil =>
      rw [hsaved, List.length_nil] at ht
      simp [← ht, eq_comm]
    | cons s saved =>
      rw [hsaved, List.length_cons] at ht
      simp [checked, back, ← ht]

theorem performAll_append : performAll (a ++ b) t = performAll a t >>= performAll b :=
  List.foldlM_append

theorem performAll_cons : performAll (o :: ops) t = perform o t >>= performAll ops :=
  List.foldlM_cons

theorem performAll_concat : performAll (ops ++ [o]) t = performAll ops t >>= perform o := by
  rw [performAll_append]
  congr 1
  funext u
  exact bind_pure _

theorem exists_performAll_of_prefix (hp : a <+: ops) (h : performAll ops t = .ok u) :
    ∃ v, performAll a t = .ok v := by
  obtain ⟨b, rfl⟩ := hp
  rw [performAll_append, Outcome.bind_eq_ok_iff] at h
  obtain ⟨v, hv, -⟩ := h
  exact ⟨v, hv⟩

theorem performAll_eq_error_iff :
    performAll ops t = .error stop ↔
      ∃ p o after u, ops = p ++ o :: after ∧ performAll p t = .ok u
        ∧ perform o u = .error stop := by
  constructor
  . intro h
    induction ops using List.reverseRecOn with
    | nil => contradiction
    | append_singleton ops o ih =>
      rw [performAll_concat, Outcome.bind_eq_error_iff] at h
      rcases h with h | ⟨u, hu, hstop⟩
      . obtain ⟨p, o', after, u, rfl, hu, hstop⟩ := ih h
        exact ⟨p, o', after ++ [o], u, by simp, hu, hstop⟩
      . exact ⟨ops, o, [], u, rfl, hu, hstop⟩
  . rintro ⟨p, o, after, u, rfl, hu, hstop⟩
    rw [performAll_append, hu]
    change performAll (o :: after) u = _
    rw [performAll_cons, hstop]
    rfl

theorem depths_concat (h : performAll (ops ++ [o]) {} = .ok u) :
    depths (ops ++ [o]) = insert u.depth (depths ops) := by
  ext d
  constructor
  . rintro ⟨p, t, hp, ht, rfl⟩
    rcases List.prefix_concat_iff.mp hp with rfl | hp
    . rw [h] at ht
      cases ht
      exact .inl rfl
    . exact .inr ⟨p, t, hp, ht, rfl⟩
  . rintro (rfl | ⟨p, t, hp, ht, rfl⟩)
    . exact ⟨_, u, List.prefix_rfl, h, rfl⟩
    . exact ⟨p, t, hp.trans (List.prefix_append _ _), ht, rfl⟩

theorem maxDepth_of_perform (h : perform o t = .ok u) (ht : t.depth ≤ t.tally.maxDepth) :
    u.tally.maxDepth = max u.depth t.tally.maxDepth := by
  rcases perform_cases h with ⟨s, -, rfl⟩ | ⟨-, rfl⟩ | ⟨-, hup⟩ | ⟨slot, -, rfl⟩
  . exact (Nat.max_eq_right ht).symm
  . exact Nat.max_comm _ _
  . obtain ⟨s, saved, -, rfl⟩ := rise?_eq_some_iff.mp hup
    exact (Nat.max_eq_right (Nat.le_trans (Nat.sub_le _ _) ht)).symm
  . exact (Nat.max_eq_right ht).symm

theorem saves_of_perform (ht : performAll ops {} = .ok t) (h : perform o t = .ok u)
    (hsaves : Saves ops t.saved) : Saves (ops ++ [o]) u.saved := by
  rcases perform_cases h with ⟨s, rfl, rfl⟩ | ⟨rfl, rfl⟩ | ⟨rfl, hup⟩ | ⟨slot, rfl, rfl⟩
  . exact hsaves.append (.singleton nofun nofun)
  . exact hsaves.concat_dive ht
  . obtain ⟨s, saved, heq, rfl⟩ := rise?_eq_some_iff.mp hup
    rw [heq] at hsaves
    exact hsaves.concat_rise
  . exact hsaves.append (.singleton nofun nofun)

theorem Counted.concat (h : Counted ops t) (hu : perform o t = .ok u) :
    Counted (ops ++ [o]) u := by
  obtain ⟨hsaved, hsum, henters, hleaves⟩ := h
  rcases perform_cases hu with ⟨s, rfl, rfl⟩ | ⟨rfl, rfl⟩ | ⟨rfl, hup⟩ | ⟨slot, rfl, rfl⟩
  . exact ⟨hsaved, hsum, by simp [append, henters], by simp [append, hleaves]⟩
  . refine ⟨congrArg (· + 1) hsaved, ?_, by simp [dive, henters], by simp [dive, hleaves]⟩
    dsimp only [dive]
    omega
  . -- there is a saved text, so the depth that is taken back was not zero
    obtain ⟨s, saved, heq, rfl⟩ := rise?_eq_some_iff.mp hup
    rw [heq, List.length_cons] at hsaved
    refine ⟨?_, ?_, by simp [back, henters], by simp [back, hleaves]⟩
    . dsimp only [back]
      omega
    . dsimp only [back]
      omega
  . exact ⟨hsaved, hsum, by simp [setSlot, henters], by simp [setSlot, hleaves]⟩

namespace Faithful

theorem nil : Faithful [] {} where
  length_saved := rfl
  enters_eq_add := rfl
  enters_eq := rfl
  leaves_eq := rfl
  isGreatest := by
    refine ⟨⟨[], {}, List.prefix_rfl, rfl, rfl⟩, ?_⟩
    rintro d ⟨p, t, hp, ht, rfl⟩
    rw [List.prefix_nil.mp hp] at ht
    cases ht
    exact Nat.le_refl _
  saves := .top .nil

theorem concat (h : Faithful ops t) (ht : performAll ops {} = .ok t) (hu : perform o t = .ok u) :
    Faithful (ops ++ [o]) u where
  toCounted := h.toCounted.concat hu
  isGreatest := by
    have hall : performAll (ops ++ [o]) {} = .ok u := by
      rw [performAll_concat, ht]
      exact hu
    have hreached : t.depth ≤ t.tally.maxDepth :=
      h.isGreatest.2 ⟨ops, t, List.prefix_rfl, ht, rfl⟩
    rw [depths_concat hall, maxDepth_of_perform hu hreached]
    exact h.isGreatest.insert u.depth
  saves := saves_of_perform ht hu h.saves

theorem of_performAll (h : performAll ops {} = .ok t) : Faithful ops t := by
  induction ops using List.reverseRecOn generalizing t with
  | nil =>
    cases h
    exact .nil
  | append_singleton ops o ih =>
    rw [performAll_concat, Outcome.bind_eq_ok_iff] at h
    obtain ⟨v, hv, ht⟩ := h
    exact (ih hv).concat hv ht

end Faithful

theorem performAll_empty_eq_error_iff :
    performAll ops {} = .error stop ↔
      ∃ p after t, ops = p ++ .rise :: after ∧ performAll p {} = .ok t ∧ t.depth = 0
        ∧ stop = .unmatched 0 := by
  rw [performAll_eq_error_iff]
  constructor
  . rintro ⟨p, o, after, t, hops, ht, hstop⟩
    have hlevel := (Faithful.of_performAll ht).length_saved
    obtain ⟨rfl, hdepth, rfl⟩ := (perform_eq_error_iff hlevel).mp hstop
    exact ⟨p, after, t, hops, ht, hdepth, rfl⟩
  . rintro ⟨p, after, t, hops, ht, hdepth, rfl⟩
    have hlevel := (Faithful.of_performAll ht).length_saved
    exact ⟨p, .rise, after, t, hops, ht, (perform_eq_error_iff hlevel).mpr ⟨rfl, hdepth, rfl⟩⟩

theorem grounded_of_performAll (h : performAll ops {} = .ok t) : Grounded ops := by
  intro p hp
  obtain ⟨u, hu⟩ := exists_performAll_of_prefix hp h
  have hcounted := (Faithful.of_performAll hu).toCounted
  rw [← hcounted.leaves_eq, ← hcounted.enters_eq, hcounted.enters_eq_add]
  exact Nat.le_add_right _ _

theorem exists_performAll_of_grounded (h : Grounded ops) : ∃ t, performAll ops {} = .ok t := by
  cases hrun : performAll ops {} with
  | ok t => exact ⟨t, rfl⟩
  | error stop =>
    obtain ⟨p, after, t, rfl, ht, hdepth, -⟩ := performAll_empty_eq_error_iff.mp hrun
    -- on the top level all ways down have their ways up, so this one is too many
    have hcounted := (Faithful.of_performAll ht).toCounted
    have hle := h (p ++ [.rise]) ⟨after, by simp⟩
    simp only [List.count_append, List.count_singleton_self, List.count_singleton, reduceCtorEq,
      beq_iff_eq, if_false, hcounted.leaves_eq.symm, hcounted.enters_eq.symm] at hle
    have hsum := hcounted.enters_eq_add
    omega

theorem exists_performAll_of_grounded_prefix (h : Grounded ops) (hp : a <+: ops) :
    ∃ t, performAll a {} = .ok t := by
  obtain ⟨t, ht⟩ := exists_performAll_of_grounded h
  exact exists_performAll_of_prefix hp ht

theorem exists_matches_of_performAll (h : performAll (ops ++ [.rise]) {} = .ok u) :
    ∃ before t, Matches ops before ∧ performAll before {} = .ok t ∧ u.text = t.text := by
  rw [performAll_concat, Outcome.bind_eq_ok_iff] at h
  obtain ⟨v, hv, hrise⟩ := h
  have hsaves := (Faithful.of_performAll hv).saves
  rcases perform_cases hrise with ⟨s, hne, -⟩ | ⟨hne, -⟩ | ⟨-, hup⟩ | ⟨slot, hne, -⟩
  . contradiction
  . contradiction
  . obtain ⟨s, saved, heq, rfl⟩ := rise?_eq_some_iff.mp hup
    rw [heq] at hsaves
    obtain ⟨before, t, hmatches, ht, htext, -⟩ := hsaves.exists_matches
    exact ⟨before, t, hmatches, ht, htext.symm⟩
  . contradiction

/--
A trail is a faithful stack of snapshots. Operations stop just on a way up from the top level, so
they never stop if at no time they have gone up more often than down. Then, whenever one of them is
done, there are as many saved texts as the depth says, the ways down are the ways up and the depth,
and the deepest level is the deepest so far. Every way up belongs to one way down, and the text is
again what it was there.
-/
theorem performAll_snapshots (ops : List Operation) :
    ((∃ t, performAll ops {} = .ok t) ↔ Grounded ops)
      ∧ (∀ stop, performAll ops {} = .error stop ↔
          ∃ p after t, ops = p ++ .rise :: after ∧ performAll p {} = .ok t ∧ t.depth = 0
            ∧ stop = .unmatched 0)
      ∧ (Grounded ops → ∀ p, p <+: ops → ∃ t, performAll p {} = .ok t ∧ Counted p t
          ∧ IsGreatest (depths p) t.tally.maxDepth)
      ∧ (Grounded ops → ∀ p, p ++ [.rise] <+: ops → ∃ before t u,
          (∀ b, Matches p b ↔ b = before) ∧ performAll before {} = .ok t
            ∧ performAll (p ++ [.rise]) {} = .ok u ∧ u.text = t.text) := by
  refine ⟨⟨?_, exists_performAll_of_grounded⟩, fun _ => performAll_empty_eq_error_iff, ?_, ?_⟩
  . intro ⟨t, ht⟩
    exact grounded_of_performAll ht
  . intro h p hp
    obtain ⟨t, ht⟩ := exists_performAll_of_grounded_prefix h hp
    have hfaithful := Faithful.of_performAll ht
    exact ⟨t, ht, hfaithful.toCounted, hfaithful.isGreatest⟩
  . intro h p hp
    obtain ⟨u, hu⟩ := exists_performAll_of_grounded_prefix h hp
    obtain ⟨before, t, hmatches, ht, htext⟩ := exists_matches_of_performAll hu
    refine ⟨before, t, u, fun b => ⟨fun hb => hb.unique hmatches, ?_⟩, ht, hu, htext⟩
    rintro rfl
    exact hmatches

theorem performAll_snapshots_nested :
    let p : List Operation := [.append "/", .dive, .setSlot .key, .append "a", .dive,
      .setSlot .value, .append "/*", .rise, .append "b"]
    Grounded (p ++ [.rise])
      ∧ (∃ t, performAll p {} = .ok t ∧ Counted p t ∧ IsGreatest (depths p) t.tally.maxDepth)
      ∧ ∃ before t u, (∀ b, Matches p b ↔ b = before) ∧ performAll before {} = .ok t
        ∧ performAll (p ++ [.rise]) {} = .ok u ∧ u.text = t.text := by
  intro p
  have h : Grounded (p ++ [.rise]) := by decide
  obtain ⟨-, -, hafter, hrise⟩ := performAll_snapshots (p ++ [.rise])
  exact ⟨h, hafter h p (List.prefix_append p _), hrise h p List.prefix_rfl⟩

end Trail

end TemplateCheck
