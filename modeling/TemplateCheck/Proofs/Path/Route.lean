import TemplateCheck.Proofs.Path.Match

/-!
This module contains where a route can lead: it goes down for a while, and once it is at a scalar
that is an element of a sequence, further steps to the same position stay there.
-/

namespace TemplateCheck

namespace Data

theorem reaches_of_at? {d n c : Data} {p route : Place} (hp : d.at? p = some n)
    (hroute : n.at? route = some c) : d.Reaches route p (p ++ route) := by
  induction route generalizing p n with
  | nil =>
    rw [List.append_nil]
    exact .nil p
  | cons b route ih =>
    rw [at?_cons, Option.bind_eq_some_iff] at hroute
    obtain ⟨m, hb, hroute⟩ := hroute
    have hm : d.at? (p ++ [b]) = some m := by
      rw [at?_concat, hp]
      exact hb
    have hreaches := ih hm hroute
    rw [List.append_assoc] at hreaches
    exact .cons (leads_of_step? hp hb) hreaches

theorem Reaches.append {d : Data} {route route' p q r : Place} (h : d.Reaches route p q)
    (h' : d.Reaches route' q r) : d.Reaches (route ++ route') p r := by
  induction h with
  | nil p => exact h'
  | cons hb _ ih => exact .cons hb (ih h')

theorem Reaches.exists_of_append {d : Data} {route route' p r : Place}
    (h : d.Reaches (route ++ route') p r) :
    ∃ q, d.Reaches route p q ∧ d.Reaches route' q r := by
  induction route generalizing p with
  | nil => exact ⟨p, .nil p, h⟩
  | cons b route ih =>
    cases h with
    | cons hb hroute =>
      obtain ⟨q, hq, hr⟩ := ih hroute
      exact ⟨q, .cons hb hq, hr⟩

theorem Leads.exists_meets_wildcard {d : Data} {b : Branch} {p q : Place} (h : d.Leads b p q) :
    ∃ c, d.at? p = some c ∧ c.Meets .wildcard none := by
  cases h with
  | @key p k entries hp hk =>
    obtain ⟨e, he, _⟩ := List.mem_map.mp hk
    refine ⟨_, hp, .inr ?_⟩
    exact List.ne_nil_of_mem (mem_branches_mapping.mpr ⟨e.1, rfl, he⟩)
  | @index p i items hp hi =>
    refine ⟨_, hp, .inr ?_⟩
    exact List.ne_nil_of_mem (mem_branches_sequence.mpr ⟨i, rfl, List.getElem?_eq_getElem hi⟩)
  | stay hp hc _ => exact ⟨_, hp, .inl hc⟩

/--
Whether a node can take all steps of a route without leaving its place: if there are any, it is a
scalar, and each leads to the position that it has in its sequence.
-/
def Stays (c : Data) (q : Place) (route : Place) : Prop :=
  ∀ b ∈ route, c.isScalar = true ∧ ∃ i, b = .index i ∧ q.getLast? = some (.index i)

theorem Stays.reaches {d c : Data} {q route : Place} (h : c.Stays q route)
    (hq : d.at? q = some c) : d.Reaches route q q := by
  induction route with
  | nil => exact .nil q
  | cons b route ih =>
    unfold Stays at h ih
    rw [List.forall_mem_cons] at h
    obtain ⟨⟨hscalar, i, rfl, hlast⟩, h⟩ := h
    exact .cons (.stay hq hscalar hlast) (ih h)

theorem eq_nil_of_at?_append {d e c : Data} {p way : Place} (hp : d.at? p = some e)
    (he : e.isScalar = true) (h : d.at? (p ++ way) = some c) : way = [] := by
  cases way with
  | nil => rfl
  | cons b way =>
    rw [at?_append, hp, Option.bind_some, at?_cons, step?_eq_none_of_isScalar he] at h
    contradiction

theorem Reaches.exists_way {d c : Data} {route p q : Place} (h : d.Reaches route p q)
    (hq : d.at? q = some c) :
    ∃ way stays, route = way ++ stays ∧ q = p ++ way ∧ c.Stays q stays := by
  induction h with
  | nil p => exact ⟨[], [], rfl, (List.append_nil p).symm, nofun⟩
  | @cons b route p q r hb hroute ih =>
    obtain ⟨way, stays, rfl, hway, hstays⟩ := ih hq
    cases hb with
    | key hp hk => exact ⟨_ :: way, stays, rfl, by rw [hway, List.append_assoc]; rfl, hstays⟩
    | index hp hi => exact ⟨_ :: way, stays, rfl, by rw [hway, List.append_assoc]; rfl, hstays⟩
    | @stay p i e hp he hi =>
      -- nothing lies below a scalar, so all that follows stays there too
      have hnil := eq_nil_of_at?_append hp he (hway ▸ hq)
      subst hnil
      rw [List.append_nil] at hway
      subst hway
      rw [hp, Option.some.injEq] at hq
      subst hq
      refine ⟨[], .index i :: stays, rfl, (List.append_nil r).symm, ?_⟩
      unfold Stays
      rw [List.forall_mem_cons]
      exact ⟨⟨he, i, rfl, hi⟩, hstays⟩

theorem reaches_iff {d c : Data} {route p q : Place} (hq : d.at? q = some c) :
    d.Reaches route p q
      ↔ ∃ way stays, route = way ++ stays ∧ q = p ++ way ∧ c.Stays q stays := by
  constructor
  . intro h
    exact h.exists_way hq
  . intro ⟨way, stays, hroute, hway, hstays⟩
    subst hroute hway
    have hpq := hq
    rw [at?_append, Option.bind_eq_some_iff] at hpq
    obtain ⟨n, hn, hc⟩ := hpq
    exact (reaches_of_at? hn hc).append (hstays.reaches hq)

theorem exists_reaches_keys_iff {d : Data} {route : Place} (hroute : ∀ b ∈ route, ∃ k, b = .key k)
    (P : Data → Prop) :
    (∃ p q c, (d.at? p).isSome ∧ d.Reaches route p q ∧ d.at? q = some c ∧ P c)
      ↔ ∃ p c, d.at? (p ++ route) = some c ∧ P c := by
  constructor
  . intro ⟨p, q, c, _, hreaches, hq, hc⟩
    obtain ⟨way, stays, rfl, rfl, hstays⟩ := (reaches_iff hq).mp hreaches
    cases stays with
    | nil =>
      rw [List.append_nil]
      exact ⟨p, c, hq, hc⟩
    | cons b stays =>
      obtain ⟨k, hk⟩ := hroute b (by simp)
      obtain ⟨_, i, hi, _⟩ := hstays b List.mem_cons_self
      rw [hk] at hi
      contradiction
  . intro ⟨p, c, hat, hc⟩
    refine ⟨p, p ++ route, c, ?_, ?_, hat, hc⟩
    . rw [at?_append, Option.bind_eq_some_iff] at hat
      obtain ⟨n, hn, _⟩ := hat
      rw [hn]
      rfl
    . apply (reaches_iff hat).mpr
      exact ⟨route, [], (List.append_nil route).symm, rfl, nofun⟩

theorem exists_sequence_of_at?_append {d c : Data} {p way : Place} (hne : way ≠ [])
    (hway : ∀ b ∈ way, ∃ i, b = .index i) (h : d.at? (p ++ way) = some c) :
    ∃ items, d.at? p = some (.sequence items) := by
  obtain ⟨b, way, rfl⟩ := List.exists_cons_of_ne_nil hne
  obtain ⟨i, rfl⟩ := hway b List.mem_cons_self
  rw [at?_append, Option.bind_eq_some_iff] at h
  obtain ⟨n, hn, h⟩ := h
  rw [at?_cons, Option.bind_eq_some_iff] at h
  obtain ⟨e, he, _⟩ := h
  cases n with
  | sequence items => exact ⟨items, hn⟩
  | _ => contradiction

theorem Stays.eq_replicate {c : Data} {q route : Place} (h : c.Stays q route) {i : Nat}
    (hlast : q.getLast? = some (.index i)) :
    route = List.replicate route.length (.index i) := by
  apply List.eq_replicate_of_mem
  intro b hb
  obtain ⟨_, j, rfl, hj⟩ := h b hb
  rw [hlast, Option.some.injEq] at hj
  exact hj.symm

theorem stays_replicate {c : Data} {q : Place} {i : Nat} (hc : c.isScalar = true)
    (hlast : q.getLast? = some (.index i)) (n : Nat) :
    c.Stays q (List.replicate n (.index i)) := by
  intro b hb
  exact ⟨hc, i, List.eq_of_mem_replicate hb, hlast⟩

theorem getLast?_append_concat (p way : Place) (b : Branch) :
    List.getLast? (p ++ (way ++ [b])) = some b := by
  rw [← List.append_assoc, List.getLast?_concat]

theorem Stays.exists_above {d c : Data} {p route : Place} (h : c.Stays p route) (hne : route ≠ [])
    (hp : d.at? p = some c) :
    ∃ p' items i n, p = p' ++ [.index i] ∧ d.at? p' = some (.sequence items)
      ∧ route = List.replicate (n + 1) (.index i) := by
  obtain ⟨b, hb⟩ := List.exists_mem_of_ne_nil route hne
  obtain ⟨_, i, rfl, hlast⟩ := h b hb
  have hreplicate := h.eq_replicate hlast
  obtain ⟨n, hn⟩ := Nat.exists_eq_add_one.mpr (List.length_pos_of_mem hb)
  rw [hn] at hreplicate
  obtain ⟨p, rfl⟩ := List.getLast?_eq_some_iff.mp hlast
  obtain ⟨items, hitems⟩ := exists_sequence_of_at?_append (by simp) (by simp) hp
  exact ⟨p, items, i, n, rfl, hitems, hreplicate⟩

theorem exists_reaches_indices_iff {d : Data} {route : Place} (hne : route ≠ [])
    (hroute : ∀ b ∈ route, ∃ i, b = .index i) {P : Data → Prop}
    (hP : ∀ c, P c → c.isScalar = true) :
    (∃ p q c, (d.at? p).isSome ∧ d.Reaches route p q ∧ d.at? q = some c ∧ P c)
      ↔ ∃ p items way i n c, d.at? p = some (.sequence items)
          ∧ route = way ++ List.replicate (n + 1) (.index i)
          ∧ d.at? (p ++ (way ++ [.index i])) = some c ∧ P c := by
  constructor
  . intro ⟨p, q, c, _, hreaches, hq, hc⟩
    obtain ⟨way, stays, rfl, rfl, hstays⟩ := (reaches_iff hq).mp hreaches
    rcases List.eq_nil_or_concat way with rfl | ⟨way, b, rfl⟩
    . rw [List.append_nil] at hq hstays
      obtain ⟨p, items, i, n, rfl, hp, hreplicate⟩ := hstays.exists_above hne hq
      exact ⟨p, items, [], i, n, c, hp, hreplicate, hq, hc⟩
    . rw [List.concat_eq_append] at hroute hq hstays ⊢
      obtain ⟨i, rfl⟩ := hroute b (by simp)
      obtain ⟨items, hp⟩ := exists_sequence_of_at?_append (by simp)
        (fun b hb => hroute b (List.mem_append_left stays hb)) hq
      refine ⟨p, items, way, i, stays.length, c, hp, ?_, hq, hc⟩
      rw [List.replicate_succ, ← hstays.eq_replicate (getLast?_append_concat p way _),
        List.append_assoc]
      rfl
  . intro ⟨p, items, way, i, n, c, hp, hsplit, hat, hc⟩
    refine ⟨p, p ++ (way ++ [.index i]), c, ?_, ?_, hat, hc⟩
    . rw [hp]
      rfl
    . apply (reaches_iff hat).mpr
      refine ⟨way ++ [.index i], List.replicate n (.index i), ?_, rfl,
        stays_replicate (hP c hc) (getLast?_append_concat p way _) n⟩
      rw [hsplit, List.replicate_succ, List.append_assoc]
      rfl

end Data

end TemplateCheck
