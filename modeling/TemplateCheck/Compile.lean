import TemplateCheck.Compile.Effect

/-!
This module contains the compiler of templates: every leaf of a template becomes one path
expression, which tells the way from the root to the leaf and what has to be there.
-/

namespace TemplateCheck

namespace Compile

structure Compilation where
  paths : List String
  tally : Tally
  deriving DecidableEq, Repr

def run? (options : Options) (t : Template) : Option Run :=
  (((visitor options).visit t).run {}).map Prod.snd

theorem exists_run?_eq_some (options : Options) (t : Template) :
    ∃ r, run? options t = some r ∧ r.paths = plainPaths options "/" .root t
      ∧ r.trail.tally = ⟨t.levels + 1, t.levels + 1, t.height + 1⟩ := by
  obtain ⟨r, hr, -, hpaths, htally⟩ := (lawful_visitor options).visit t
  exact ⟨r, congrArg (Option.map Prod.snd) hr, hpaths, htally⟩

theorem isSome_run? (options : Options) (t : Template) : (run? options t).isSome := by
  obtain ⟨r, hr, -⟩ := exists_run?_eq_some options t
  exact Option.isSome_of_eq_some hr

def compile (options : Options) (t : Template) : Compilation :=
  let r := (run? options t).get (isSome_run? options t)
  ⟨r.paths, r.trail.tally⟩

theorem compile_eq_plain (options : Options) (t : Template) :
    compile options t = ⟨plainPaths options "/" .root t,
      ⟨t.levels + 1, t.levels + 1, t.height + 1⟩⟩ := by
  obtain ⟨r, hr, hpaths, htally⟩ := exists_run?_eq_some options t
  unfold compile
  rw [Option.get_of_eq_some _ hr, Compilation.mk.injEq]
  exact ⟨hpaths, htally⟩

end Compile

end TemplateCheck
