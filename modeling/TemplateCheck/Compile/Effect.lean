import TemplateCheck.Compile.Plain

/-!
This module contains what the parts of a run do: what each hook of the compiling visitor makes of
the part inside it, and from that what a whole run does, which never fails and writes the paths of
the plain recursion.
-/

namespace TemplateCheck

namespace Compile

def Run.Level (r : Run) : Prop :=
  r.trail.saved.length = r.trail.depth

structure Inside (r : Run) : Prop where
  level : r.Level
  depth_pos : 0 < r.trail.depth
  depth_le : r.trail.depth ≤ r.trail.tally.maxDepth

/--
What a part does from `r` to `r'`: it ends on the level on which it began, has added `paths`, and
has gone down `levels` times and at most `height` levels deep.
-/
structure Adds (paths : List String) (levels height : Nat) (r r' : Run) : Prop where
  paths_eq : r'.paths = r.paths ++ paths
  saved_eq : r'.trail.saved = r.trail.saved
  depth_eq : r'.trail.depth = r.trail.depth
  enters_eq : r'.trail.tally.enters = r.trail.tally.enters + levels
  leaves_eq : r'.trail.tally.leaves = r.trail.tally.leaves + levels
  maxDepth_eq : r'.trail.tally.maxDepth = max r.trail.tally.maxDepth (r.trail.depth + height)

namespace Adds

variable {ps qs : List String} {m n h k : Nat} {r r₁ r₂ : Run}

theorem inside (hr : Inside r) (ha : Adds ps n h r r₁) : Inside r₁ := by
  have hlevel := hr.level
  have := hr.depth_pos
  have := hr.depth_le
  have := ha.depth_eq
  have := ha.maxDepth_eq
  constructor
  . unfold Run.Level at hlevel ⊢
    rw [ha.saved_eq, ha.depth_eq, hlevel]
  . omega
  . omega

theorem trans (ha : Adds ps m h r r₁) (hb : Adds qs n k r₁ r₂) :
    Adds (ps ++ qs) (m + n) (max h k) r r₂ := by
  constructor
  . rw [hb.paths_eq, ha.paths_eq, List.append_assoc]
  . rw [hb.saved_eq, ha.saved_eq]
  . rw [hb.depth_eq, ha.depth_eq]
  . have := ha.enters_eq
    have := hb.enters_eq
    omega
  . have := ha.leaves_eq
    have := hb.leaves_eq
    omega
  . have := ha.depth_eq
    have := ha.maxDepth_eq
    have := hb.maxDepth_eq
    omega

theorem of_rewrite {text : String} {slot : Slot}
    (ha : Adds ps n h { r with trail := { r.trail with text := text, slot := slot } } r₁) :
    Adds ps n h r r₁ :=
  ⟨ha.paths_eq, ha.saved_eq, ha.depth_eq, ha.enters_eq, ha.leaves_eq, ha.maxDepth_eq⟩

theorem setSlot (ha : Adds ps n h r r₁) (slot : Slot) :
    Adds ps n h r { r₁ with trail := r₁.trail.setSlot slot } :=
  ⟨ha.paths_eq, ha.saved_eq, ha.depth_eq, ha.enters_eq, ha.leaves_eq, ha.maxDepth_eq⟩

theorem refl (hr : Inside r) : Adds [] 0 0 r r := by
  have := hr.depth_le
  constructor
  . rw [List.append_nil]
  . rfl
  . rfl
  . rfl
  . rfl
  . omega

end Adds

def Writes (p : Part) (paths : List String) (levels height : Nat) (r : Run) : Prop :=
  ∃ r', p.run r = some ((), r') ∧ Adds paths levels height r r'

def Returns (p : Part) (paths : List String) (levels height : Nat) (r : Run) : Prop :=
  ∃ r', p.run r = some ((), r') ∧ Adds paths levels height r r' ∧ r'.trail.text = r.trail.text

theorem run_bind_eq {p : Part} {q : Unit → Part} {r r₁ : Run} (hp : p.run r = some ((), r₁)) :
    (p >>= q).run r = (q ()).run r₁ := by
  rw [StateT.run_bind, hp]
  rfl

namespace Writes

variable {p : Part} {ps : List String} {n h : Nat} {r : Run}

theorem of_returns (hp : Returns p ps n h r) : Writes p ps n h r := by
  obtain ⟨r', hrun, hadds, _⟩ := hp
  exact ⟨r', hrun, hadds⟩

theorem append_bind {s : String}
    (hp : Writes p ps n h { r with trail := r.trail.append s }) :
    Writes (append s >>= fun _ => p) ps n h r := by
  obtain ⟨r', hrun, ha⟩ := hp
  exact ⟨r', hrun, ha.of_rewrite⟩

theorem setSlot_bind {slot : Slot}
    (hp : Writes p ps n h { r with trail := r.trail.setSlot slot }) :
    Writes (onTrail (Trail.setSlot slot) >>= fun _ => p) ps n h r := by
  obtain ⟨r', hrun, ha⟩ := hp
  exact ⟨r', hrun, ha.of_rewrite⟩

theorem bind_setSlot {slot : Slot} (hp : Writes p ps n h r) :
    Writes (p >>= fun _ => onTrail (Trail.setSlot slot)) ps n h r := by
  obtain ⟨r', hrun, ha⟩ := hp
  exact ⟨_, run_bind_eq hrun, ha.setSlot slot⟩

end Writes

namespace Returns

variable {p q : Part} {ps qs : List String} {m n h k : Nat} {r : Run}

theorem nil (hr : Inside r) : Returns (pure ()) [] 0 0 r :=
  ⟨r, rfl, Adds.refl hr, rfl⟩

theorem bind_setSlot {slot : Slot} (hp : Returns p ps n h r) :
    Returns (p >>= fun _ => onTrail (Trail.setSlot slot)) ps n h r := by
  obtain ⟨r', hrun, ha, ht⟩ := hp
  exact ⟨_, run_bind_eq hrun, ha.setSlot slot, ht⟩

theorem bind (hr : Inside r) (hp : Returns p ps m h r)
    (hq : ∀ r₁, Inside r₁ → r₁.trail.text = r.trail.text → Returns q qs n k r₁) :
    Returns (p >>= fun _ => q) (ps ++ qs) (m + n) (max h k) r := by
  obtain ⟨r₁, hrun₁, ha₁, ht₁⟩ := hp
  -- the second part starts where the first one did, as far as the text goes
  obtain ⟨r₂, hrun₂, ha₂, ht₂⟩ := hq r₁ (ha₁.inside hr) ht₁
  refine ⟨r₂, ?_, ha₁.trans ha₂, ht₂.trans ht₁⟩
  rw [run_bind_eq hrun₁]
  exact hrun₂

theorem below (hp : Writes p ps n h { r with trail := r.trail.dive }) :
    Returns (Compile.below p) ps (n + 1) (h + 1) r := by
  obtain ⟨r', hrun, ha⟩ := hp
  refine ⟨{ r' with trail := r'.trail.back r.trail.text r.trail.saved }, ?_, ?_, rfl⟩
  . change (p >>= fun _ => Compile.rise).run { r with trail := r.trail.dive } = _
    rw [run_bind_eq hrun, run_rise]
    rw [Trail.rise?_eq_some ha.saved_eq]
    rfl
  . have hd : r'.trail.depth = r.trail.depth + 1 := ha.depth_eq
    have he : r'.trail.tally.enters = r.trail.tally.enters + 1 + n := ha.enters_eq
    have hm : r'.trail.tally.maxDepth
        = max (max r.trail.tally.maxDepth (r.trail.depth + 1)) (r.trail.depth + 1 + h) :=
      ha.maxDepth_eq
    have hl : r'.trail.tally.leaves = r.trail.tally.leaves + n := ha.leaves_eq
    constructor
    . exact ha.paths_eq
    . rfl
    all_goals
      dsimp [Trail.back]
      omega

end Returns

def Passes (hook : Part → Part) (start : Run → Run) : Prop :=
  ∀ ⦃p ps n h r⦄, Inside r → Writes p ps n h (start r) → Writes (hook p) ps n h r

def Dives (hook : Part → Part) (start : Run → Run) : Prop :=
  ∀ ⦃p ps n h r⦄, Inside r → Writes p ps n h (start r) → Returns (hook p) ps (n + 1) (h + 1) r

def Run.below (r : Run) : Run :=
  { r with trail := r.trail.dive }

def Run.write (r : Run) (s : String) : Run :=
  { r with trail := r.trail.append s }

def Run.setSlot (r : Run) (slot : Slot) : Run :=
  { r with trail := r.trail.setSlot slot }

def Run.step (r : Run) (options : Options) (b : Branch) : Run :=
  (r.below.write (segmentText options b)).setSlot (slotOf b)

namespace Inside

variable {r : Run}

theorem below (hr : Inside r) : Inside r.below := by
  have := hr.depth_le
  constructor
  . exact congrArg (· + 1) hr.level
  . exact Nat.succ_pos _
  . exact Nat.le_max_right _ _

theorem write (hr : Inside r) (s : String) : Inside (r.write s) :=
  ⟨hr.level, hr.depth_pos, hr.depth_le⟩

theorem setSlot (hr : Inside r) (slot : Slot) : Inside (r.setSlot slot) :=
  ⟨hr.level, hr.depth_pos, hr.depth_le⟩

theorem step (hr : Inside r) (options : Options) (b : Branch) : Inside (r.step options b) :=
  (hr.below.write _).setSlot _

theorem root : Inside (Run.below { trail := Trail.append "/" {} }) :=
  ⟨rfl, Nat.one_pos, Nat.le_refl _⟩

end Inside

/--
A visitor whose hooks do what a compilation asks of them. The walk of a template knows no more of
them than this.
-/
structure Lawful (options : Options) (v : Visitor (StateT Run Option)) : Prop where
  root {p : Part} {ps : List String} {n h : Nat}
    (hp : Writes p ps n h (Run.below { trail := Trail.append "/" {} })) :
    ∃ r', (v.node p).run {} = some ((), r') ∧ r'.Level ∧ r'.paths = ps
      ∧ r'.trail.tally = ⟨n + 1, n + 1, h + 1⟩
  node : Passes v.node id
  mapping (size : Nat) : Dives (v.mapping size) fun r => r.below.write "/"
  entry : Dives v.entry Run.below
  key (text : String) {r : Run} (hr : Inside r) :
    (v.key text).run r
      = some ((), (r.write (segmentText options (.key text))).setSlot .root)
  value : Passes v.value (Run.setSlot · .value)
  sequence (size : Nat) : Dives (v.sequence size) fun r => r.below.write "/"
  element (i : Nat) : Dives (v.element i) (Run.step · options (.index i))
  leaf (l : Leaf) {r : Run} (hr : Inside r) (hslot : r.trail.slot ≠ .key) :
    Writes (v.leaf l) [r.trail.text ++ ending r.trail.slot l] 0 0 r

theorem run_separate {r : Run} (hr : Inside r) :
    separate.run r.below = some ((), r.below.write "/") := by
  have : 1 < r.below.trail.depth := Nat.succ_lt_succ hr.depth_pos
  change (if 1 < r.below.trail.depth then append "/" else pure () : Part).run _ = _
  rw [if_pos this]
  rfl

theorem dives_below_separate :
    Dives (fun p => below (separate >>= fun _ => p)) fun r => r.below.write "/" := by
  intro p ps n h r hr hp
  apply Returns.below
  obtain ⟨r', hrun, ha⟩ := hp
  refine ⟨r', ?_, ha.of_rewrite (r := r.below)⟩
  rw [← hrun]
  exact run_bind_eq (run_separate hr)

theorem writes_finishLeaf {slot : Slot} (l : Leaf) {r : Run} (hr : Inside r) :
    Writes (finishLeaf (ending.opening slot) l) [r.trail.text ++ ending slot l] 0 0 r := by
  cases l with
  | wildcard =>
    apply Writes.append_bind
    refine ⟨_, rfl, ?_⟩
    exact ⟨rfl, rfl, rfl, rfl, rfl, (Adds.refl hr).maxDepth_eq⟩
  | scalar s =>
    apply Writes.append_bind
    apply Writes.append_bind
    apply Writes.append_bind
    refine ⟨_, rfl, ?_⟩
    refine ⟨?_, rfl, rfl, rfl, rfl, (Adds.refl hr).maxDepth_eq⟩
    simp only [Trail.append, ending, String.append_assoc]

theorem writes_writeLeaf (options : Options) (l : Leaf) {r : Run} (hr : Inside r)
    (hslot : r.trail.slot ≠ .key) :
    Writes (writeLeaf options l) [r.trail.text ++ ending r.trail.slot l] 0 0 r := by
  have hrun : (writeLeaf options l).run r
      = (finishLeaf (ending.opening r.trail.slot) l).run r := by
    obtain ⟨⟨text, saved, depth, slot, tally⟩, paths⟩ := r
    cases slot with
    | element => rfl
    | value => rfl
    | root => rfl
    | key => exact absurd rfl hslot
  unfold Writes
  rw [hrun]
  exact writes_finishLeaf l hr

theorem lawful_visitor (options : Options) : Lawful options (visitor options) where
  root {p ps n h} hp := by
    obtain ⟨r', hrun, ha, -⟩ := Returns.below (r := { trail := Trail.append "/" {} }) hp
    refine ⟨{ r' with trail := r'.trail.clear }, ?_, ?_, ha.paths_eq, ?_⟩
    . change (append "/" >>= fun _ => below p >>= fun _ => onTrail Trail.clear).run {} = _
      rw [run_bind_eq rfl]
      exact run_bind_eq hrun
    . change r'.trail.saved.length = r'.trail.depth
      rw [ha.saved_eq, ha.depth_eq]
      rfl
    . have henters : r'.trail.tally.enters = 0 + (n + 1) := ha.enters_eq
      have hleaves : r'.trail.tally.leaves = 0 + (n + 1) := ha.leaves_eq
      have hmax : r'.trail.tally.maxDepth = max 0 (0 + (h + 1)) := ha.maxDepth_eq
      change Tally.mk r'.trail.tally.enters r'.trail.tally.leaves r'.trail.tally.maxDepth = _
      rw [henters, hleaves, hmax]
      simp only [Nat.zero_add, Nat.zero_max]
  node := by
    intro p ps n h r hr hp
    have : ¬ r.trail.depth = 0 := Nat.ne_of_gt hr.depth_pos
    have hrun : ((visitor options).node p).run r = p.run r := by
      change (if r.trail.depth = 0 then _ else p : Part).run r = p.run r
      rw [if_neg this]
    unfold Writes
    rw [hrun]
    exact hp
  mapping _ := dives_below_separate
  entry _ _ _ _ _ _ hp := Returns.below hp
  key _ _ _ := rfl
  value _ _ _ _ _ _ hp := Writes.setSlot_bind (Writes.bind_setSlot hp)
  sequence _ := dives_below_separate
  element i := by
    intro p ps n h r hr hp
    apply Returns.bind_setSlot
    apply Returns.below
    apply Writes.setSlot_bind
    apply Writes.append_bind
    exact hp
  leaf := writes_writeLeaf options

namespace Lawful

variable {options : Options} {v : Visitor (StateT Run Option)} (hv : Lawful options v)

include hv

theorem entry_key_value {k : String} {p : Part} {ps : List String} {n h : Nat} {r : Run}
    (hr : Inside r) (hp : Writes p ps n h (r.step options (.key k))) :
    Returns (v.entry do
      v.key k
      v.value (v.node p)) ps (n + 1) (h + 1) r := by
  apply hv.entry hr
  have hvalue : Writes (v.value (v.node p)) ps n h
      ((r.below.write (segmentText options (.key k))).setSlot .root) :=
    hv.value ((hr.below.write _).setSlot _) (hv.node (hr.step options (.key k)) hp)
  obtain ⟨r', hrun, ha⟩ := hvalue
  refine ⟨r', ?_, ha.of_rewrite (r := r.below)⟩
  rw [run_bind_eq (hv.key k hr.below)]
  exact hrun

mutual

theorem walk (t : Template) {r : Run} (hr : Inside r) (hslot : r.trail.slot ≠ .key) :
    Writes (v.walk t) (plainPaths options r.trail.text r.trail.slot t) t.levels t.height r := by
  cases t with
  | wildcard => exact hv.leaf _ hr hslot
  | scalar text => exact hv.leaf _ hr hslot
  -- a container takes back all text, a leaf leaves its own on the trail for the level above
  | sequence items =>
    apply Writes.of_returns
    apply hv.sequence _ hr
    apply Writes.of_returns
    exact walkItems 0 items (hr.below.write "/")
  | mapping entries =>
    apply Writes.of_returns
    apply hv.mapping _ hr
    apply Writes.of_returns
    exact walkEntries entries (hr.below.write "/")

theorem walkItems (i : Nat) (ts : List Template) {r : Run} (hr : Inside r) :
    Returns (v.walkItems i ts) (plainPathsOfItems options r.trail.text i ts)
      (Template.levelsOfItems ts) (Template.heightOfItems ts) r := by
  cases ts with
  | nil => exact Returns.nil hr
  | cons t ts =>
    apply Returns.bind hr
    . apply hv.element i hr
      apply hv.node (hr.step options (.index i))
      exact walk t (hr.step options (.index i)) nofun
    . intro r₁ hr₁ htext
      rw [← htext]
      exact walkItems (i + 1) ts hr₁

theorem walkEntries (es : List (String × Template)) {r : Run} (hr : Inside r) :
    Returns (v.walkEntries es) (plainPathsOfEntries options r.trail.text es)
      (Template.levelsOfEntries es) (Template.heightOfEntries es) r := by
  cases es with
  | nil => exact Returns.nil hr
  | cons e es =>
    obtain ⟨k, t⟩ := e
    apply Returns.bind hr
    . apply hv.entry_key_value hr
      exact walk t (hr.step options (.key k)) nofun
    . intro r₁ hr₁ htext
      rw [← htext]
      exact walkEntries es hr₁

end

theorem visit (t : Template) :
    ∃ r', (v.visit t).run {} = some ((), r') ∧ r'.Level
      ∧ r'.paths = plainPaths options "/" .root t
      ∧ r'.trail.tally = ⟨t.levels + 1, t.levels + 1, t.height + 1⟩ :=
  hv.root (hv.walk t Inside.root nofun)

end Lawful

end Compile

end TemplateCheck
