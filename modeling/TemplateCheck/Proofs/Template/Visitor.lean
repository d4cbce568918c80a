import TemplateCheck.Proofs.Template.Stops

/-!
This module contains what recording visitors note. A visitor whose hooks go on inside, and note
nothing there but what tells of the structure, notes each key and leaf once and in order; and the
notes of every part determine the template.
-/

namespace TemplateCheck

namespace Event

def isContent : Event → Bool
  | .key _ | .leaf _ => true
  | _ => false

def Notes (part : StateM (List Event) Unit) (events : List Event) : Prop :=
  ∀ s, part.run s = ((), s ++ events)

theorem notes_note (e : Event) : Notes (note e) [e] := by
  intro s
  rfl

theorem notes_pure : Notes (pure ()) [] := by
  intro s
  rw [List.append_nil]
  rfl

theorem Notes.bind {part rest : StateM (List Event) Unit} {es fs : List Event}
    (hpart : Notes part es) (hrest : Notes rest fs) :
    Notes (do part; rest) (es ++ fs) := by
  intro s
  rw [StateT.run_bind, hpart s]
  change rest.run (s ++ es) = _
  rw [hrest (s ++ es), List.append_assoc]

theorem Notes.record_eq {v : Visitor (StateM (List Event))} {t : Template} {es : List Event}
    (h : Notes (v.visit t) es) : record v t = es := by
  unfold record
  rw [h []]
  rfl

def Shows (keep : Event → Bool) (part : StateM (List Event) Unit) (events : List Event) : Prop :=
  ∃ notes, Notes part notes ∧ notes.filter keep = events

variable {keep : Event → Bool}

theorem shows_pure : Shows keep (pure ()) [] := by
  exact ⟨[], notes_pure, rfl⟩

theorem Shows.bind {part rest : StateM (List Event) Unit} {es fs : List Event}
    (hpart : Shows keep part es) (hrest : Shows keep rest fs) :
    Shows keep (do part; rest) (es ++ fs) := by
  obtain ⟨notes, hnotes, rfl⟩ := hpart
  obtain ⟨notes', hnotes', rfl⟩ := hrest
  exact ⟨notes ++ notes', hnotes.bind hnotes', List.filter_append _ _⟩

theorem shows_note {e : Event} (he : keep e = true) : Shows keep (note e) [e] := by
  exact ⟨[e], notes_note e, List.filter_cons_of_pos he⟩

theorem shows_note_of_not {e : Event} (he : keep e = false) : Shows keep (note e) [] := by
  refine ⟨[e], notes_note e, List.filter_cons_of_neg ?_⟩
  rw [he]
  exact Bool.false_ne_true

theorem shows_note_inside_note {e f : Event} (he : keep e = false) (hf : keep f = false)
    {inside : StateM (List Event) Unit} {es : List Event} (h : Shows keep inside es) :
    Shows keep (do note e; inside; note f) es := by
  have hinside := h.bind (shows_note_of_not hf)
  rw [List.append_nil] at hinside
  exact (shows_note_of_not he).bind hinside

theorem Shows.filter_record_eq {v : Visitor (StateM (List Event))} {t : Template}
    {es : List Event} (h : Shows keep (v.visit t) es) : (record v t).filter keep = es := by
  obtain ⟨notes, hnotes, rfl⟩ := h
  rw [hnotes.record_eq]

/--
A recording visitor is harmless to what is kept if each hook goes on inside once and adds nothing
that is kept, and keys and leaves are noted as they are.
-/
structure Harmless (keep : Event → Bool) (v : Visitor (StateM (List Event))) : Prop where
  node {inside es} (h : Shows keep inside es) : Shows keep (v.node inside) es
  mapping {inside es} (size : Nat) (h : Shows keep inside es) :
    Shows keep (v.mapping size inside) es
  entry {inside es} (h : Shows keep inside es) : Shows keep (v.entry inside) es
  key (text : String) : Shows keep (v.key text) [.key text]
  value {inside es} (h : Shows keep inside es) : Shows keep (v.value inside) es
  sequence {inside es} (size : Nat) (h : Shows keep inside es) :
    Shows keep (v.sequence size inside) es
  element {inside es} (index : Nat) (h : Shows keep inside es) :
    Shows keep (v.element index inside) es
  leaf (l : Leaf) : Shows keep (v.leaf l) [.leaf l]

namespace Harmless

variable {v : Visitor (StateM (List Event))}

mutual

theorem shows_walk (hv : Harmless keep v) (t : Template) :
    Shows keep (v.walk t) (t.stops.map Prod.snd) := by
  cases t with
  | wildcard => exact hv.leaf .wildcard
  | scalar text => exact hv.leaf (.scalar text)
  | sequence items => exact hv.sequence items.length (hv.shows_walkItems 0 items)
  | mapping entries => exact hv.mapping entries.length (hv.shows_walkEntries entries)

theorem shows_walkItems (hv : Harmless keep v) (i : Nat) (ts : List Template) :
    Shows keep (v.walkItems i ts) ((Template.stopsOfItems i ts).map Prod.snd) := by
  cases ts with
  | nil => exact shows_pure
  | cons t ts =>
    rw [Template.stopsOfItems, List.map_append, List.map_append, Template.map_snd_behind]
    exact (hv.element i (hv.node (hv.shows_walk t))).bind (hv.shows_walkItems (i + 1) ts)

theorem shows_walkEntries (hv : Harmless keep v) (es : List (String × Template)) :
    Shows keep (v.walkEntries es) ((Template.stopsOfEntries es).map Prod.snd) := by
  cases es with
  | nil => exact shows_pure
  | cons e es =>
    obtain ⟨k, t⟩ := e
    rw [Template.stopsOfEntries, List.map_append, List.map_append, Template.map_snd_behind]
    have hvalue := hv.value (hv.node (hv.shows_walk t))
    exact (hv.entry ((hv.key k).bind hvalue)).bind (hv.shows_walkEntries es)

end

theorem filter_record_eq (hv : Harmless keep v) (t : Template) :
    (record v t).filter keep = t.stops.map Prod.snd := by
  exact (hv.node (hv.shows_walk t)).filter_record_eq

end Harmless

theorem harmless_plainVisitor (hkey : ∀ k, keep (.key k) = true)
    (hleaf : ∀ l, keep (.leaf l) = true) : Harmless keep plainVisitor where
  node h := h
  mapping _ h := h
  entry h := h
  key text := shows_note (hkey text)
  value h := h
  sequence _ h := h
  element _ h := h
  leaf l := shows_note (hleaf l)

theorem harmless_fullVisitor : Harmless isContent fullVisitor where
  node h := (shows_note_of_not rfl).bind h
  mapping _ h := shows_note_inside_note rfl rfl h
  entry h := (shows_note_of_not rfl).bind h
  key _ := shows_note rfl
  value h := (shows_note_of_not rfl).bind h
  sequence _ h := shows_note_inside_note rfl rfl h
  element _ h := (shows_note_of_not rfl).bind h
  leaf _ := shows_note rfl

mutual

def trace : Template → List Event
  | .wildcard => [.node, .leaf .wildcard]
  | .scalar text => [.node, .leaf (.scalar text)]
  | .sequence items => .node :: .sequence items.length :: (traceOfItems 0 items ++ [.close])
  | .mapping entries => .node :: .mapping entries.length :: (traceOfEntries entries ++ [.close])

def traceOfItems (i : Nat) : List Template → List Event
  | [] => []
  | t :: ts => .element i :: (trace t ++ traceOfItems (i + 1) ts)

def traceOfEntries : List (String × Template) → List Event
  | [] => []
  | (k, t) :: es => .entry :: .key k :: .value :: (trace t ++ traceOfEntries es)

end

mutual

theorem notes_visit_fullVisitor (t : Template) : Notes (fullVisitor.visit t) (trace t) := by
  cases t with
  | wildcard => exact (notes_note .node).bind (notes_note _)
  | scalar text => exact (notes_note .node).bind (notes_note _)
  | sequence items =>
    have hitems := (notes_walkItems_fullVisitor 0 items).bind (notes_note .close)
    exact (notes_note .node).bind ((notes_note (.sequence items.length)).bind hitems)
  | mapping entries =>
    have hentries := (notes_walkEntries_fullVisitor entries).bind (notes_note .close)
    exact (notes_note .node).bind ((notes_note (.mapping entries.length)).bind hentries)

theorem notes_walkItems_fullVisitor (i : Nat) (ts : List Template) :
    Notes (fullVisitor.walkItems i ts) (traceOfItems i ts) := by
  cases ts with
  | nil => exact notes_pure
  | cons t ts =>
    have helement := (notes_note (.element i)).bind (notes_visit_fullVisitor t)
    exact helement.bind (notes_walkItems_fullVisitor (i + 1) ts)

theorem notes_walkEntries_fullVisitor (es : List (String × Template)) :
    Notes (fullVisitor.walkEntries es) (traceOfEntries es) := by
  cases es with
  | nil => exact notes_pure
  | cons e es =>
    obtain ⟨k, t⟩ := e
    have hvalue := (notes_note .value).bind (notes_visit_fullVisitor t)
    have hentry := (notes_note .entry).bind ((notes_note (.key k)).bind hvalue)
    exact hentry.bind (notes_walkEntries_fullVisitor es)

end

mutual

theorem trace_append_inj {t t' : Template} {r r' : List Event}
    (h : trace t ++ r = trace t' ++ r') : t = t' ∧ r = r' := by
  cases t with
  | wildcard =>
    cases t' with
    | wildcard => simpa [trace] using h
    | _ => simp [trace] at h
  | scalar text =>
    cases t' with
    | scalar text' => simpa [trace] using h
    | _ => simp [trace] at h
  | sequence items =>
    cases t' with
    | sequence items' =>
      simp only [trace, List.cons_append, List.cons.injEq, List.append_assoc] at h
      obtain ⟨rfl, hr⟩ := traceOfItems_append_inj h.2.2
      exact ⟨rfl, hr⟩
    | _ => simp [trace] at h
  | mapping entries =>
    cases t' with
    | mapping entries' =>
      simp only [trace, List.cons_append, List.cons.injEq, List.append_assoc] at h
      obtain ⟨rfl, hr⟩ := traceOfEntries_append_inj h.2.2
      exact ⟨rfl, hr⟩
    | _ => simp [trace] at h

theorem traceOfItems_append_inj {i : Nat} {ts ts' : List Template} {r r' : List Event}
    (h : traceOfItems i ts ++ .close :: r = traceOfItems i ts' ++ .close :: r') :
    ts = ts' ∧ r = r' := by
  cases ts with
  | nil =>
    cases ts' with
    | nil => simpa [traceOfItems] using h
    | cons t' ts' => simp [traceOfItems] at h
  | cons t ts =>
    cases ts' with
    | nil => simp [traceOfItems] at h
    | cons t' ts' =>
      simp only [traceOfItems, List.cons_append, List.cons.injEq, List.append_assoc] at h
      obtain ⟨rfl, htail⟩ := trace_append_inj h.2
      obtain ⟨rfl, hr⟩ := traceOfItems_append_inj htail
      exact ⟨rfl, hr⟩

theorem traceOfEntries_append_inj {es es' : List (String × Template)} {r r' : List Event}
    (h : traceOfEntries es ++ .close :: r = traceOfEntries es' ++ .close :: r') :
    es = es' ∧ r = r' := by
  cases es with
  | nil =>
    cases es' with
    | nil => simpa [traceOfEntries] using h
    | cons e' es' => simp [traceOfEntries] at h
  | cons e es =>
    cases es' with
    | nil => simp [traceOfEntries] at h
    | cons e' es' =>
      obtain ⟨k, t⟩ := e
      obtain ⟨k', t'⟩ := e'
      simp only [traceOfEntries, List.cons_append, List.cons.injEq, List.append_assoc] at h
      obtain ⟨-, hk, -, hrest⟩ := h
      rw [key.injEq] at hk
      obtain ⟨rfl, htail⟩ := trace_append_inj hrest
      obtain ⟨rfl, hr⟩ := traceOfEntries_append_inj htail
      exact ⟨by rw [hk], hr⟩

end

theorem record_plainVisitor (t : Template) : record plainVisitor t = t.stops.map Prod.snd := by
  have hplain : Harmless (fun _ => true) plainVisitor :=
    harmless_plainVisitor (fun _ => rfl) fun _ => rfl
  rw [← hplain.filter_record_eq t, List.filter_true]

theorem record_fullVisitor (t : Template) : record fullVisitor t = trace t :=
  (notes_visit_fullVisitor t).record_eq

/--
What is noted on a template tells all of it. The visitor that only notes keys and leaves notes each
key of a mapping and each leaf once, all that lies below a place in one go, and each key just before
what lies below it. The visitor that goes through every hook notes the same keys and leaves in the
same order, and all its notes together are those of no other template.
-/
theorem record_eq_stops {t : Template} (ht : t.keysDistinct = true) :
    record plainVisitor t = t.stops.map Prod.snd
    ∧ t.stops.Nodup
    ∧ (∀ p k, (p, .key k) ∈ t.stops ↔ ∃ q sub, p = q ++ [.key k] ∧ t.at? p = some sub)
    ∧ (∀ p leaf, (p, .leaf leaf) ∈ t.stops ↔ t.at? p = some leaf.template)
    ∧ (∀ p sub, t.at? p = some sub →
      ∃ before after, t.stops = before ++ Template.behindPlace p sub.stops ++ after)
    ∧ (∀ p k sub, t.at? (p ++ [.key k]) = some sub →
      ∃ before after, t.stops = before ++ (p ++ [.key k], .key k)
        :: Template.behindPlace (p ++ [.key k]) sub.stops ++ after)
    ∧ (record fullVisitor t).filter isContent = record plainVisitor t
    ∧ ∀ t', record fullVisitor t' = record fullVisitor t → t' = t := by
  refine ⟨record_plainVisitor t, Template.nodup_stops ht, fun _ _ => Template.key_mem_stops_iff ht,
    fun _ _ => Template.leaf_mem_stops_iff ht, fun _ _ => Template.exists_stops_eq_of_at?,
    fun _ _ _ => Template.exists_stops_eq_of_at?_key, ?_, ?_⟩
  . rw [record_plainVisitor]
    exact harmless_fullVisitor.filter_record_eq t
  . intro t' h
    rw [record_fullVisitor, record_fullVisitor] at h
    have htrace : trace t' ++ [] = trace t ++ [] := by
      rw [h]
    exact (trace_append_inj htrace).1

theorem record_eq_stops_nested :
    (Template.mapping [("a", .sequence [.scalar "x", .wildcard]), ("b", .mapping []),
      ("c", .scalar "x")]).keysDistinct = true
    ∧ record plainVisitor (.mapping [("a", .sequence [.scalar "x", .wildcard]), ("b", .mapping []),
      ("c", .scalar "x")])
      = [.key "a", .leaf (.scalar "x"), .leaf .wildcard, .key "b", .key "c", .leaf (.scalar "x")]
    ∧ (record fullVisitor (.mapping [("a", .sequence [.scalar "x", .wildcard]),
      ("b", .mapping []), ("c", .scalar "x")])).filter isContent
      = [.key "a", .leaf (.scalar "x"), .leaf .wildcard, .key "b", .key "c", .leaf (.scalar "x")]
    ∧ record fullVisitor (.mapping [("a", .sequence [.scalar "x", .scalar "*"]),
        ("b", .mapping []), ("c", .scalar "x")])
      ≠ record fullVisitor (.mapping [("a", .sequence [.scalar "x", .wildcard]),
        ("b", .mapping []), ("c", .scalar "x")]) := by
  have hkeys : (Template.mapping [("a", .sequence [.scalar "x", .wildcard]), ("b", .mapping []),
      ("c", .scalar "x")]).keysDistinct = true := by
    decide
  obtain ⟨hplain, -, -, -, -, -, hfull, hinj⟩ := record_eq_stops hkeys
  refine ⟨hkeys, hplain, hfull.trans hplain, ?_⟩
  intro h
  have heq := hinj _ h
  simp at heq

end Event

end TemplateCheck
