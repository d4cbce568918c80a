import TemplateCheck.Proofs.Template.Determined
import TemplateCheck.Proofs.Template.Replace

/-!
This module contains the keys and leaves of a template in the order in which a walk meets them, each
with its place. Every key of a mapping and every leaf is met once, what lies below a place is met in
one go, and the key that leads there is met just before.
-/

namespace TemplateCheck

namespace Template

def behind (b : Branch) (stops : List (Place × Event)) : List (Place × Event) :=
  stops.map fun x => (b :: x.1, x.2)

def behindPlace (p : Place) (stops : List (Place × Event)) : List (Place × Event) :=
  stops.map fun x => (p ++ x.1, x.2)

def arrival : Branch → List (Place × Event)
  | .key k => [([.key k], .key k)]
  | .index _ => []

mutual

/--
The keys and leaves of a template with their places, depth first. The place of a key is that of its
value, which follows it.
-/
def stops : Template → List (Place × Event)
  | .wildcard => [([], .leaf .wildcard)]
  | .scalar text => [([], .leaf (.scalar text))]
  | .sequence items => stopsOfItems 0 items
  | .mapping entries => stopsOfEntries entries

def stopsOfItems (i : Nat) : List Template → List (Place × Event)
  | [] => []
  | t :: ts => arrival (.index i) ++ behind (.index i) t.stops ++ stopsOfItems (i + 1) ts

def stopsOfEntries : List (String × Template) → List (Place × Event)
  | [] => []
  | (k, t) :: es => arrival (.key k) ++ behind (.key k) t.stops ++ stopsOfEntries es

end

theorem behind_behindPlace (b : Branch) (p : Place) (xs : List (Place × Event)) :
    behind b (behindPlace p xs) = behindPlace (b :: p) xs := by
  unfold behind behindPlace
  rw [List.map_map]
  rfl

theorem behindPlace_behind (p : Place) (b : Branch) (xs : List (Place × Event)) :
    behindPlace p (behind b xs) = behindPlace (p ++ [b]) xs := by
  unfold behind behindPlace
  simp

theorem behindPlace_nil (xs : List (Place × Event)) : behindPlace [] xs = xs := by
  unfold behindPlace
  simp

theorem behind_append (b : Branch) (xs ys : List (Place × Event)) :
    behind b (xs ++ ys) = behind b xs ++ behind b ys := by
  exact List.map_append

theorem behindPlace_append (p : Place) (xs ys : List (Place × Event)) :
    behindPlace p (xs ++ ys) = behindPlace p xs ++ behindPlace p ys := by
  exact List.map_append

theorem map_snd_behind (b : Branch) (xs : List (Place × Event)) :
    (behind b xs).map Prod.snd = xs.map Prod.snd := by
  unfold behind
  rw [List.map_map]
  rfl

theorem mem_behind_iff {b : Branch} {xs : List (Place × Event)} {p : Place} {e : Event} :
    (p, e) ∈ behind b xs ↔ ∃ q, p = b :: q ∧ (q, e) ∈ xs := by
  unfold behind
  rw [List.mem_map]
  constructor
  . rintro ⟨⟨q, _⟩, hx, heq⟩
    cases heq
    exact ⟨q, rfl, hx⟩
  . rintro ⟨q, rfl, hx⟩
    exact ⟨(q, e), hx, rfl⟩

theorem mem_arrival_iff {b : Branch} {p : Place} {e : Event} :
    (p, e) ∈ arrival b ↔ ∃ k, b = .key k ∧ p = [.key k] ∧ e = .key k := by
  cases b with
  | key k => simp [arrival]
  | index i => simp [arrival]

theorem stops_template (leaf : Leaf) : leaf.template.stops = [([], .leaf leaf)] := by
  cases leaf with
  | wildcard => rfl
  | scalar s => rfl

theorem stopsOfItems_eq (i : Nat) (ts : List Template) :
    stopsOfItems i ts
      = (ts.zipIdx i).flatMap fun x => arrival (.index x.2) ++ behind (.index x.2) x.1.stops := by
  induction ts generalizing i with
  | nil => rfl
  | cons t ts ih =>
    rw [List.zipIdx_cons, List.flatMap_cons, ← ih]
    rfl

theorem stopsOfEntries_eq (es : List (String × Template)) :
    stopsOfEntries es = es.flatMap fun e => arrival (.key e.1) ++ behind (.key e.1) e.2.stops := by
  induction es with
  | nil => rfl
  | cons e es ih =>
    rw [List.flatMap_cons, ← ih]
    rfl

theorem stops_eq {t : Template} (ht : t.isContainer = true) :
    t.stops = t.branches.flatMap fun b => arrival b.1 ++ behind b.1 b.2.stops := by
  cases t with
  | wildcard => contradiction
  | scalar text => contradiction
  | sequence items =>
    rw [stops, branches, List.flatMap_map]
    exact stopsOfItems_eq 0 items
  | mapping entries =>
    rw [stops, branches, List.flatMap_map]
    exact stopsOfEntries_eq entries

theorem head?_of_mem_arrival_append_behind {b : Branch} {xs : List (Place × Event)}
    {x : Place × Event} (hx : x ∈ arrival b ++ behind b xs) : x.1.head? = some b := by
  rw [List.mem_append] at hx
  cases hx with
  | inl hx =>
    obtain ⟨k, rfl, hp, -⟩ := mem_arrival_iff.mp hx
    rw [hp]
    rfl
  | inr hx =>
    obtain ⟨q, hp, -⟩ := mem_behind_iff.mp hx
    rw [hp]
    rfl

theorem nil_mem_stops_iff {t : Template} {e : Event} :
    ([], e) ∈ t.stops ↔ ∃ leaf, e = .leaf leaf ∧ t = leaf.template := by
  cases ht : t.isContainer with
  | false =>
    obtain ⟨leaf, rfl⟩ := exists_eq_template ht
    rw [stops_template, List.mem_singleton]
    constructor
    . intro h
      exact ⟨leaf, (Prod.mk.inj h).2, rfl⟩
    . rintro ⟨leaf', rfl, h⟩
      rw [template_inj.mp h]
  | true =>
    constructor
    . intro h
      rw [stops_eq ht, List.mem_flatMap] at h
      obtain ⟨b, _, h⟩ := h
      have := head?_of_mem_arrival_append_behind h
      contradiction
    . rintro ⟨leaf, -, rfl⟩
      cases leaf <;> contradiction

theorem cons_mem_stops_iff {t : Template} (ht : t.keysDistinct = true) {b : Branch} {p : Place}
    {e : Event} :
    (b :: p, e) ∈ t.stops
      ↔ ∃ t', t.step? b = some t' ∧ ((b :: p, e) ∈ arrival b ∨ (p, e) ∈ t'.stops) := by
  cases hcontainer : t.isContainer with
  | false =>
    constructor
    . intro h
      obtain ⟨leaf, rfl⟩ := exists_eq_template hcontainer
      rw [stops_template, List.mem_singleton] at h
      cases h
    . rintro ⟨t', hb, _⟩
      rw [isContainer_of_step? hb] at hcontainer
      contradiction
  | true =>
    rw [stops_eq hcontainer, List.mem_flatMap]
    constructor
    . rintro ⟨⟨c, t'⟩, hc, h⟩
      have hhead := head?_of_mem_arrival_append_behind h
      cases hhead
      refine ⟨t', (mem_branches_iff ht).mp hc, ?_⟩
      rw [List.mem_append] at h
      cases h with
      | inl h => exact .inl h
      | inr h =>
        obtain ⟨q, heq, hq⟩ := mem_behind_iff.mp h
        cases heq
        exact .inr hq
    . rintro ⟨t', hb, h⟩
      refine ⟨(b, t'), (mem_branches_iff ht).mpr hb, List.mem_append.mpr ?_⟩
      cases h with
      | inl h => exact .inl h
      | inr h => exact .inr (mem_behind_iff.mpr ⟨p, rfl, h⟩)

theorem leaf_mem_stops_iff {t : Template} (ht : t.keysDistinct = true) {p : Place} {leaf : Leaf} :
    (p, .leaf leaf) ∈ t.stops ↔ t.at? p = some leaf.template := by
  induction p generalizing t with
  | nil =>
    rw [nil_mem_stops_iff, at?, Option.some.injEq]
    constructor
    . rintro ⟨_, heq, rfl⟩
      cases heq
      rfl
    . intro h
      exact ⟨leaf, rfl, h⟩
  | cons b p ih =>
    rw [cons_mem_stops_iff ht, at?_cons_eq_some_iff]
    apply exists_congr
    intro t'
    apply and_congr_right
    intro hb
    have hkeys := keysDistinct_of_mem_branches ht ((mem_branches_iff ht).mpr hb)
    rw [ih hkeys, or_iff_right]
    intro h
    obtain ⟨k, -, -, heq⟩ := mem_arrival_iff.mp h
    contradiction

theorem key_mem_stops_iff {t : Template} (ht : t.keysDistinct = true) {p : Place} {k : String} :
    (p, .key k) ∈ t.stops ↔ ∃ q sub, p = q ++ [.key k] ∧ t.at? p = some sub := by
  induction p generalizing t with
  | nil =>
    rw [nil_mem_stops_iff]
    constructor
    . rintro ⟨_, heq, -⟩
      contradiction
    . rintro ⟨q, _, heq, -⟩
      simp at heq
  | cons b p ih =>
    rw [cons_mem_stops_iff ht]
    constructor
    . rintro ⟨t', hb, h⟩
      have hkeys := keysDistinct_of_mem_branches ht ((mem_branches_iff ht).mpr hb)
      cases h with
      | inl h =>
        obtain ⟨_, rfl, hp, hk⟩ := mem_arrival_iff.mp h
        cases hp
        cases hk
        exact ⟨[], t', rfl, at?_cons_eq_some_iff.mpr ⟨t', hb, rfl⟩⟩
      | inr h =>
        obtain ⟨q, sub, rfl, hsub⟩ := (ih hkeys).mp h
        exact ⟨b :: q, sub, rfl, at?_cons_eq_some_iff.mpr ⟨t', hb, hsub⟩⟩
    . rintro ⟨q, sub, hp, hsub⟩
      obtain ⟨t', hb, hsub⟩ := at?_cons_eq_some_iff.mp hsub
      have hkeys := keysDistinct_of_mem_branches ht ((mem_branches_iff ht).mpr hb)
      refine ⟨t', hb, ?_⟩
      cases q with
      | nil =>
        cases hp
        exact .inl (mem_arrival_iff.mpr ⟨k, rfl, rfl, rfl⟩)
      | cons c q =>
        cases hp
        exact .inr ((ih hkeys).mpr ⟨q, sub, rfl, hsub⟩)

theorem nodup_arrival_append_behind {b : Branch} {t : Template} (h : t.stops.Nodup) :
    (arrival b ++ behind b t.stops).Nodup := by
  cases b with
  | index i => exact Branch.nodup_map_cons h
  | key k =>
    refine List.nodup_cons.mpr ⟨?_, Branch.nodup_map_cons h⟩
    -- the key stands where its value does, at which there can only be a leaf
    intro hmem
    obtain ⟨q, heq, hq⟩ := mem_behind_iff.mp hmem
    cases heq
    obtain ⟨leaf, heq, -⟩ := nil_mem_stops_iff.mp hq
    contradiction

theorem nodup_stops {t : Template} (ht : t.keysDistinct = true) : t.stops.Nodup := by
  induction t using induction_branches with
  | h t ih =>
    cases hcontainer : t.isContainer with
    | false =>
      obtain ⟨leaf, rfl⟩ := exists_eq_template hcontainer
      rw [stops_template]
      exact List.nodup_singleton _
    | true =>
      rw [stops_eq hcontainer]
      apply Branch.nodup_flatMap (nodup_branches ht)
      . intro b _ x hx
        exact head?_of_mem_arrival_append_behind hx
      . intro b hb
        exact nodup_arrival_append_behind (ih b.1 b.2 hb (keysDistinct_of_mem_branches ht hb))

theorem exists_stops_eq_of_step? {t sub : Template} {b : Branch} (h : t.step? b = some sub) :
    ∃ before after, t.stops = before ++ (arrival b ++ behind b sub.stops) ++ after := by
  obtain ⟨front, back, hbranches, -⟩ := exists_branches_replace h sub
  rw [stops_eq (isContainer_of_step? h), hbranches]
  simp only [List.flatMap_append, List.flatMap_cons]
  exact ⟨_, _, (List.append_assoc _ _ _).symm⟩

theorem exists_stops_eq_of_at? {t sub : Template} {p : Place} (h : t.at? p = some sub) :
    ∃ before after, t.stops = before ++ behindPlace p sub.stops ++ after := by
  induction p generalizing t with
  | nil =>
    rw [at?, Option.some.injEq] at h
    rw [h, behindPlace_nil]
    exact ⟨[], [], by simp⟩
  | cons b p ih =>
    obtain ⟨t', hb, h⟩ := at?_cons_eq_some_iff.mp h
    obtain ⟨front, back, hsub⟩ := ih h
    obtain ⟨before, after, ht⟩ := exists_stops_eq_of_step? hb
    rw [hsub, behind_append, behind_append, behind_behindPlace] at ht
    refine ⟨before ++ arrival b ++ behind b front, behind b back ++ after, ?_⟩
    rw [ht]
    simp

theorem exists_stops_eq_of_at?_key {t sub : Template} {p : Place} {k : String}
    (h : t.at? (p ++ [.key k]) = some sub) :
    ∃ before after,
      t.stops = before ++ (p ++ [.key k], .key k) :: behindPlace (p ++ [.key k]) sub.stops
        ++ after := by
  rw [at?_concat, Option.bind_eq_some_iff] at h
  obtain ⟨parent, hp, hsub⟩ := h
  obtain ⟨before, after, ht⟩ := exists_stops_eq_of_at? hp
  obtain ⟨front, back, hparent⟩ := exists_stops_eq_of_step? hsub
  rw [hparent, behindPlace_append, behindPlace_append, behindPlace_append, behindPlace_behind] at ht
  refine ⟨before ++ behindPlace p front, behindPlace p back ++ after, ?_⟩
  rw [ht]
  simp [behindPlace, arrival]

end Template

end TemplateCheck
