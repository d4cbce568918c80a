/-!
This module contains the trail of a compilation: the path text so far, and the texts to which the
way back up returns.
-/

namespace TemplateCheck

inductive Slot where
  | element
  | value
  | key
  | root
  deriving DecidableEq, Repr

structure Tally where
  enters : Nat := 0
  leaves : Nat := 0
  maxDepth : Nat := 0
  deriving DecidableEq, Repr

structure Trail where
  text : String := ""
  saved : List String := []
  depth : Nat := 0
  slot : Slot := .root
  tally : Tally := {}
  deriving DecidableEq, Repr

namespace Trail

def append (s : String) (t : Trail) : Trail :=
  { t with text := t.text ++ s }

def setSlot (slot : Slot) (t : Trail) : Trail :=
  { t with slot := slot }

def dive (t : Trail) : Trail :=
  { t with
    saved := t.text :: t.saved
    depth := t.depth + 1
    tally := { t.tally with
      enters := t.tally.enters + 1
      maxDepth := max t.tally.maxDepth (t.depth + 1) } }

def back (t : Trail) (s : String) (saved : List String) : Trail :=
  { t with
    text := s
    saved := saved
    depth := t.depth - 1
    tally := { t.tally with leaves := t.tally.leaves + 1 } }

def rise? (t : Trail) : Option Trail :=
  match t.saved with
  -- on the top level there is no way up
  | [] => none
  | s :: saved => some (t.back s saved)

theorem rise?_eq_some {t : Trail} {s : String} {saved : List String}
    (h : t.saved = s :: saved) : t.rise? = some (t.back s saved) := by
  unfold rise?
  rw [h]

theorem rise?_eq_some_iff {t up : Trail} :
    t.rise? = some up ↔ ∃ s saved, t.saved = s :: saved ∧ up = t.back s saved := by
  unfold rise?
  split
  . next h => simp [h]
  . next s saved h =>
    simp only [h, Option.some.injEq, List.cons.injEq]
    constructor
    . rintro rfl
      exact ⟨s, saved, ⟨rfl, rfl⟩, rfl⟩
    . rintro ⟨_, _, ⟨rfl, rfl⟩, rfl⟩
      rfl

def clear (t : Trail) : Trail :=
  { t with text := "", slot := .root }

inductive Operation where
  | append (s : String)
  | dive
  | rise
  | setSlot (slot : Slot)
  deriving DecidableEq, Repr

inductive Stop where
  | unmatched (depth : Nat)
  | belowZero
  | unbalanced
  deriving DecidableEq, Repr

def checked (t : Trail) : Except Stop Trail :=
  if t.saved.length = t.depth then .ok t else .error .unbalanced

def perform : Operation → Trail → Except Stop Trail
  | .append s, t => .ok (t.append s)
  | .dive, t => t.dive.checked
  | .rise, t =>
    match t.rise? with
    | none => .error (.unmatched t.depth)
    | some up => if t.depth = 0 then .error .belowZero else up.checked
  | .setSlot slot, t => .ok (t.setSlot slot)

def performAll (operations : List Operation) (t : Trail) : Except Stop Trail :=
  operations.foldlM (fun t operation => perform operation t) t

end Trail

end TemplateCheck
