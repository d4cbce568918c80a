import TemplateCheck.Proofs.Command.AllOrNothing
import TemplateCheck.Proofs.Source.Settings
import TemplateCheck.Proofs.Template.Scalars

/-!
This module contains what the settings of a run do to it. A file of settings with a fault is as good
as none where it is the default one, and ends the run where the command line names it; the wildcard
of a run is never empty, so nothing that is empty in a template stands for anything else.
-/

namespace TemplateCheck

namespace Compile

theorem exists_leafText_scalar_empty (options : Options) (p : Place) :
    ∃ front, leafText options "/" .root (p, .scalar "") = front ++ "[ value eq '' ]" := by
  have hending : ∀ slot, ∃ front, ending slot (.scalar "") = front ++ "[ value eq '' ]" := by
    intro slot
    cases slot with
    | element => exact ⟨"/.", by decide⟩
    | value => exact ⟨"/*", by decide⟩
    | key | root => exact ⟨".", by decide⟩
  obtain ⟨front, hfront⟩ := hending (slotAt .root p)
  refine ⟨"/" ++ routeText options p ++ front, ?_⟩
  unfold leafText
  rw [hfront]
  simp only [String.append_assoc]

end Compile

namespace Command

variable {files files' : Source.Files} {home home' : Source.Entry} {input : List UInt8}
  {a : Arguments}

theorem candidates_congr {each : Bool} {source : String} (h : files' source = files source) :
    candidates files' input each source = candidates files input each source := by
  unfold candidates Source.candidates Source.readText
  rw [h]

theorem judge_congr {v : Validator} {each : Bool} {sources : List String}
    (h : ∀ source ∈ sources, files' source = files source) :
    judge v files' each input sources = judge v files each input sources := by
  induction sources generalizing input with
  | nil => rfl
  | cons source sources ih =>
    rw [List.forall_mem_cons] at h
    unfold judge
    rw [candidates_congr h.1]
    simp only [ih h.2]

theorem execute_congr_of_settings (hs : settings files' home' a = settings files home a)
    (h : ∀ name ∈ a.templates ++ a.data, files' name = files name) :
    execute files' home' input a = execute files home input a := by
  rw [List.forall_mem_append] at h
  unfold execute
  rw [validator_congr hs h.1]
  simp only [judge_congr h.2]

def givenSettings (files : Source.Files) (home : Source.Entry) (a : Arguments) :
    Except Source.Error Settings :=
  match a.config? with
  | some name => Source.settings files name
  | none => .ok ((Source.settingsOf defaultConfig home).toOption.getD {})

theorem settings_eq (files : Source.Files) (home : Source.Entry) (a : Arguments) :
    settings files home a = (givenSettings files home a).map fun s =>
      if a.strict then { s with strict := true } else s := by
  unfold settings givenSettings
  cases a.config? with
  | some name =>
    dsimp only
    cases Source.settings files name <;> rfl
  | none =>
    dsimp only
    cases Source.settingsOf defaultConfig home <;> rfl

theorem settings_eq_of_home_error (hconfig : a.config? = none)
    (h : ∃ e, Source.settingsOf defaultConfig home = .error e)
    (h' : ∃ e, Source.settingsOf defaultConfig home' = .error e) :
    settings files' home' a = settings files home a := by
  obtain ⟨e, he⟩ := h
  obtain ⟨e', he'⟩ := h'
  rw [settings_eq, settings_eq, givenSettings, givenSettings, hconfig]
  dsimp only
  rw [he, he']
  rfl

theorem wildcard_ne_empty_of_givenSettings {s : Settings}
    (h : givenSettings files home a = .ok s) : s.wildcard ≠ "" := by
  unfold givenSettings at h
  split at h
  . exact Source.wildcard_ne_empty_of_settingsOf h
  . cases hhome : Source.settingsOf defaultConfig home with
    | ok s' =>
      rw [hhome] at h
      cases h
      exact Source.wildcard_ne_empty_of_settingsOf hhome
    | error e =>
      rw [hhome] at h
      cases h
      change ({} : Settings).wildcard ≠ ""
      decide

theorem wildcard_ne_empty_of_settings {s : Settings} (h : settings files home a = .ok s) :
    s.wildcard ≠ "" := by
  rw [settings_eq, Outcome.map_eq_ok_iff] at h
  obtain ⟨s', hs', rfl⟩ := h
  have hwildcard := wildcard_ne_empty_of_givenSettings hs'
  split
  . exact hwildcard
  . exact hwildcard

theorem exists_ofYaml_of_templates {wildcard name : String} {ts : List Template}
    (h : Source.templates files wildcard name = .ok ts) :
    ∀ t ∈ ts, ∃ y, t = Template.ofYaml wildcard y := by
  obtain ⟨text, -, h⟩ := Outcome.bind_eq_ok_iff.mp h
  rw [Outcome.mapError_eq_ok_iff] at h
  obtain ⟨ys, -, rfl⟩ := Outcome.map_eq_ok_iff.mp h
  intro t ht
  obtain ⟨y, -, hy⟩ := List.mem_map.mp ht
  exact ⟨y, hy.symm⟩

theorem Loads.exists_ofYaml {s : Settings} {tss : List (List Template)}
    (h : Loads files home a s tss) :
    ∀ t ∈ tss.flatten, ∃ y, t = Template.ofYaml s.wildcard y := by
  intro t ht
  obtain ⟨ts, hts, ht⟩ := List.mem_flatten.mp ht
  have hmem : Except.ok ts ∈ a.templates.map (Source.templates files s.wildcard) := by
    rw [h.templates]
    exact List.mem_map_of_mem hts
  obtain ⟨name, -, hname⟩ := List.mem_map.mp hmem
  exact exists_ofYaml_of_templates hname t ht

section Empty

variable {wildcard : String} (hwildcard : wildcard ≠ "") {y : Yaml.Value} {p : Place}
  (hempty : (Data.ofYaml y).at? p = some .null ∨ (Data.ofYaml y).at? p = some (.string ""))

include hwildcard hempty

theorem mem_leaves_ofYaml_iff_of_empty (leaf : Leaf) :
    (p, leaf) ∈ (Template.ofYaml wildcard y).leaves ↔ leaf = .scalar "" := by
  rw [Template.mem_leaves_ofYaml_iff]
  rcases hempty with h | h
  . rw [h]
    simp [Template.leafOf, Data.isScalar, Data.isContainer, Data.text?]
  . rw [h]
    simp [Template.leafOf, Data.isScalar, Data.isContainer, Ne.symm hwildcard]

theorem exists_paths_getElem?_of_empty (options : Compile.Options) :
    ∃ (i : Nat) (front : String), (Template.ofYaml wildcard y).leaves[i]? = some (p, .scalar "")
      ∧ (Compile.compile options (Template.ofYaml wildcard y)).paths[i]?
        = some (front ++ "[ value eq '' ]") := by
  have hmem := (mem_leaves_ofYaml_iff_of_empty hwildcard hempty (.scalar "")).mpr rfl
  obtain ⟨i, hi⟩ := List.getElem?_of_mem hmem
  obtain ⟨front, hfront⟩ := Compile.exists_leafText_scalar_empty options p
  refine ⟨i, front, hi, ?_⟩
  rw [Compile.compile_paths_eq, List.getElem?_map, hi, Option.map_some, hfront]

end Empty

variable {arguments : List String}

theorem result_congr_of_settings (h : Request.ofArguments? arguments = some (.run a))
    (hs : settings files' home' a = settings files home a)
    (hfiles : ∀ name ∈ a.templates ++ a.data, files' name = files name) :
    result files' input arguments home' = result files input arguments home := by
  unfold result
  rw [h]
  dsimp only
  rw [execute_congr_of_settings hs hfiles]

theorem result_of_config_fault {name : String}
    (h : Request.ofArguments? arguments = some (.run a)) (hconfig : a.config? = some name)
    (hfault : files name = .missing ∨ Source.Faulty (files name)) :
    (result files input arguments home).status = 2
      ∧ (result files input arguments home).output = "" := by
  obtain ⟨e, he⟩ : ∃ e, Source.settingsOf name (files name) = .error e := by
    rw [Source.exists_settingsOf_eq_error_iff]
    exact hfault.imp_right .inr
  apply result_of_fails h
  apply Fails.settings (e := e)
  rw [settings_eq, givenSettings, hconfig]
  dsimp only [Source.settings]
  rw [he]
  rfl

/--
A run whose default file of settings has a fault leads to what it leads to without that file, as
long as it reads the file for nothing else; a run that names a file of settings with a fault, or
none that is there, fails and prints nothing. No run has an empty wildcard: what is null or an
empty text in a template is compared with the empty text.
-/
theorem result_of_faulty_settings (input : List UInt8) (a : Arguments) (arguments : List String)
    (h : Request.ofArguments? arguments = some (.run a)) :
    (∀ (name : String) (bytes : List UInt8),
      (∃ e, Source.settingsOf name (.file bytes) = .error e) ↔ Source.Faulty (.file bytes))
    ∧ (a.config? = none → ∀ (files files' : Source.Files) (home : Source.Entry),
      Source.Faulty home →
      (∀ name ∈ a.templates ++ a.data, files' name = files name) →
      result files input arguments home = result files' input arguments .missing)
    ∧ (∀ (files : Source.Files) (home : Source.Entry) (name : String), a.config? = some name →
      files name = .missing ∨ Source.Faulty (files name) →
      (result files input arguments home).status = 2
      ∧ (result files input arguments home).output = "")
    ∧ (∀ (files : Source.Files) (home : Source.Entry) (s : Settings),
      settings files home a = .ok s → s.wildcard ≠ "")
    ∧ ∀ (files : Source.Files) (home : Source.Entry) (s : Settings) (tss : List (List Template)),
      Loads files home a s tss → ∀ t ∈ tss.flatten, ∃ y, t = Template.ofYaml s.wildcard y
        ∧ ∀ p, (Data.ofYaml y).at? p = some .null ∨ (Data.ofYaml y).at? p = some (.string "") →
          (∀ leaf, (p, leaf) ∈ t.leaves ↔ leaf = .scalar "")
          ∧ ∃ (i : Nat) (front : String), t.leaves[i]? = some (p, .scalar "")
            ∧ (Compile.compile s.compileOptions t).paths[i]?
              = some (front ++ "[ value eq '' ]") := by
  refine ⟨?_, ?_, ?_, ?_, ?_⟩
  . intro name bytes
    rw [Source.exists_settingsOf_eq_error_iff]
    simp
  . intro hconfig files files' home hfaulty hfiles
    apply result_congr_of_settings h
    . apply settings_eq_of_home_error hconfig
      . exact Source.exists_settingsOf_eq_error_iff.mpr (.inl rfl)
      . exact Source.exists_settingsOf_eq_error_iff.mpr (.inr (.inr hfaulty))
    . intro name hname
      exact (hfiles name hname).symm
  . intro files home name
    exact result_of_config_fault h
  . intro files home s hs
    exact wildcard_ne_empty_of_settings hs
  . intro files home s tss hloads t ht
    obtain ⟨y, rfl⟩ := hloads.exists_ofYaml t ht
    have hwildcard := wildcard_ne_empty_of_settings hloads.settings
    refine ⟨y, rfl, ?_⟩
    intro p hempty
    exact ⟨mem_leaves_ofYaml_iff_of_empty hwildcard hempty,
      exists_paths_getElem?_of_empty hwildcard hempty s.compileOptions⟩

def emptyWildcard : Source.Files
  | "t" => .file [0x7C]
  | "d" => .file [0x35]
  | "c" => .file "wildcard=''".toUTF8.data.toList
  | _ => .missing

theorem result_of_faulty_settings_empty_wildcard :
    Source.Faulty (emptyWildcard "c")
      ∧ (result emptyWildcard [] ["-t", "t", "d"] (emptyWildcard "c")).output = "d#0\tFAIL\n"
      ∧ (result emptyWildcard [] ["-t", "t", "d"] (emptyWildcard "c")).status = 1
      ∧ result emptyWildcard [] ["-t", "t", "d"] (emptyWildcard "c")
        = result (fun name => if name = "c" then .missing else emptyWildcard name) []
          ["-t", "t", "d"] .missing
      ∧ (result emptyWildcard [] ["-t", "t", "--config", "c", "d"] .missing).status = 2
      ∧ (result emptyWildcard [] ["-t", "t", "--config", "c", "d"] .missing).output = "" := by
  have hdefault : Request.ofArguments? ["-t", "t", "d"]
      = some (.run ⟨["t"], ["d"], false, false, false, none, none⟩) := by
    decide +kernel
  have hnamed : Request.ofArguments? ["-t", "t", "--config", "c", "d"]
      = some (.run ⟨["t"], ["d"], false, false, false, none, some "c"⟩) := by
    decide +kernel
  obtain ⟨hfaulty, hignored, -⟩ := result_of_faulty_settings [] _ _ hdefault
  obtain ⟨-, -, hfatal, -⟩ := result_of_faulty_settings [] _ _ hnamed
  have herror : ∃ e, Source.settingsOf "c" (emptyWildcard "c") = .error e := by
    cases hs : Source.settingsOf "c" (emptyWildcard "c") with
    | error e => exact ⟨e, rfl⟩
    | ok s =>
      have hnone : (Source.settingsOf "c" (emptyWildcard "c")).toOption = none := by
        decide +kernel
      rw [hs] at hnone
      contradiction
  replace herror : Source.Faulty (emptyWildcard "c") := (hfaulty "c" _).mp herror
  have hended := hfatal emptyWildcard .missing "c" rfl (.inr herror)
  refine ⟨herror, by decide +kernel, by decide +kernel, ?_, hended.1, hended.2⟩
  exact hignored rfl emptyWildcard _ _ herror (by decide)

end Command

end TemplateCheck
