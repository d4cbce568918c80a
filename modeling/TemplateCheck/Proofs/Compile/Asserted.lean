import TemplateCheck.Compile

/-!
This module contains a run of the compiler that is watched on its way: whenever it has gone down or
up, the number of the saved texts has to be the depth, and in the end it has to have gone up as
often as down. The proof is that a run is never stopped by this.
-/

namespace TemplateCheck

namespace Visitor

variable {m : Type → Type} [Monad m]

def guardedHook (check : m Unit) (hook : m Unit → m Unit) (inside : m Unit) : m Unit := do
  hook do
    check
    inside
    check
  check

def guarded (check : m Unit) (v : Visitor m) : Visitor m where
  node := guardedHook check v.node
  mapping size := guardedHook check (v.mapping size)
  entry := guardedHook check v.entry
  key text := do
    v.key text
    check
  value := guardedHook check v.value
  sequence size := guardedHook check (v.sequence size)
  element index := guardedHook check (v.element index)
  leaf l := do
    v.leaf l
    check

end Visitor

namespace Compile

def assertLevel : Part := do
  let r ← get
  if r.trail.saved.length = r.trail.depth then pure () else failure

def asserted? (options : Options) (t : Template) : Option Compilation := do
  let r ← ((((visitor options).guarded assertLevel).visit t).run {}).map Prod.snd
  if r.trail.tally.enters = r.trail.tally.leaves then some ⟨r.paths, r.trail.tally⟩ else none

section Guarded

variable {check : Part} (hcheck : ∀ r : Run, r.Level → check.run r = some ((), r))

include hcheck

theorem Writes.guard {p : Part} {ps : List String} {n h : Nat} {r : Run} (hr : Inside r)
    (hp : Writes p ps n h r) : Writes (check >>= fun _ => p >>= fun _ => check) ps n h r := by
  obtain ⟨r', hrun, ha⟩ := hp
  refine ⟨r', ?_, ha⟩
  rw [run_bind_eq (hcheck r hr.level), run_bind_eq hrun]
  exact hcheck r' (ha.inside hr).level

theorem Passes.guardedHook {hook : Part → Part} {start : Run → Run} (hhook : Passes hook start)
    (hstart : ∀ {r}, Inside r → Inside (start r)) :
    Passes (Visitor.guardedHook check hook) start := by
  intro p ps n h r hr hp
  obtain ⟨r', hrun, ha⟩ := hhook hr (hp.guard hcheck (hstart hr))
  refine ⟨r', ?_, ha⟩
  unfold Visitor.guardedHook
  rw [run_bind_eq hrun]
  exact hcheck r' (ha.inside hr).level

theorem Dives.guardedHook {hook : Part → Part} {start : Run → Run} (hhook : Dives hook start)
    (hstart : ∀ {r}, Inside r → Inside (start r)) :
    Dives (Visitor.guardedHook check hook) start := by
  intro p ps n h r hr hp
  obtain ⟨r', hrun, ha, htext⟩ := hhook hr (hp.guard hcheck (hstart hr))
  refine ⟨r', ?_, ha, htext⟩
  unfold Visitor.guardedHook
  rw [run_bind_eq hrun]
  exact hcheck r' (ha.inside hr).level

theorem Lawful.guarded {options : Options} {v : Visitor (StateT Run Option)}
    (hv : Lawful options v) : Lawful options (v.guarded check) where
  root {p ps n h} hp := by
    obtain ⟨r', hrun, hlevel, hr'⟩ := hv.root (hp.guard hcheck Inside.root)
    refine ⟨r', ?_, hlevel, hr'⟩
    change (v.node _ >>= fun _ => check).run {} = _
    rw [run_bind_eq hrun]
    exact hcheck r' hlevel
  node := hv.node.guardedHook hcheck id
  mapping size := (hv.mapping size).guardedHook hcheck fun hr => hr.below.write "/"
  entry := hv.entry.guardedHook hcheck Inside.below
  key text r hr := by
    change (v.key text >>= fun _ => check).run r = _
    rw [run_bind_eq (hv.key text hr)]
    exact hcheck _ ((hr.write _).setSlot _).level
  value := hv.value.guardedHook hcheck fun hr => hr.setSlot .value
  sequence size := (hv.sequence size).guardedHook hcheck fun hr => hr.below.write "/"
  element i := (hv.element i).guardedHook hcheck fun hr => hr.step options (.index i)
  leaf l {r} hr hslot := by
    obtain ⟨r', hrun, ha⟩ := hv.leaf l hr hslot
    refine ⟨r', ?_, ha⟩
    change (v.leaf l >>= fun _ => check).run r = _
    rw [run_bind_eq hrun]
    exact hcheck r' (ha.inside hr).level

end Guarded

theorem run_assertLevel (r : Run) (hr : r.Level) : assertLevel.run r = some ((), r) := by
  unfold Run.Level at hr
  change (if r.trail.saved.length = r.trail.depth then pure () else failure : Part).run r = _
  rw [if_pos hr]
  rfl

theorem asserted?_eq_some (options : Options) (t : Template) :
    asserted? options t = some (compile options t) := by
  obtain ⟨r, hr, -, hpaths, htally⟩ := ((lawful_visitor options).guarded run_assertLevel).visit t
  unfold asserted?
  rw [hr, compile_eq_plain]
  change (if r.trail.tally.enters = r.trail.tally.leaves then _ else _) = _
  rw [hpaths, htally, if_pos rfl]

end Compile

end TemplateCheck
