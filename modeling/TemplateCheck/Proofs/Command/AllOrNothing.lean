import TemplateCheck.Command.Run
import TemplateCheck.Proofs.Command.Report
import TemplateCheck.Proofs.Session.Ledger

/-!
This module contains that a run of the command line does all or nothing. If anything that it needs
cannot be loaded, it fails and prints nothing; otherwise it prints the paths of all templates or the
verdicts on all candidates, and its status says what the verdicts say.
-/

namespace TemplateCheck

namespace Command

/--
What standard input holds for the source at a position: everything for the first one that reads it,
and nothing after that.
-/
def inputAt (input : List UInt8) (sources : List String) (i : Nat) : List UInt8 :=
  if "-" ∈ sources.take i then [] else input

def documents (files : Source.Files) (input : List UInt8) (source : String) :
    Except Source.Error (List Data) :=
  if source = "-" then Source.inputCandidates input else Source.candidates files source

def allDocuments (files : Source.Files) (input : List UInt8) (sources : List String) :
    List (Except Source.Error (List Data)) :=
  sources.mapIdx fun i source => documents files (inputAt input sources i) source

def split (each : Bool) (ds : List Data) : List Data :=
  if each then ds.flatMap elements else ds

inductive Fails (files : Source.Files) (home : Source.Entry) (input : List UInt8) (a : Arguments) :
    Prop where
  | settings {e : Source.Error} (h : Command.settings files home a = .error e)
  | template {s : Settings} {name : String} {e : Source.Error}
      (hs : Command.settings files home a = .ok s) (hname : name ∈ a.templates)
      (h : Source.templates files s.wildcard name = .error e)
  | noData (hp : a.printPaths = false) (h : a.data = [])
  | data {e : Source.Error} (hp : a.printPaths = false)
      (h : .error e ∈ allDocuments files input a.data)

structure Loads (files : Source.Files) (home : Source.Entry) (a : Arguments) (s : Settings)
    (tss : List (List Template)) : Prop where
  settings : Command.settings files home a = .ok s
  templates : a.templates.map (Source.templates files s.wildcard) = tss.map .ok

def verdictsOf (s : Settings) (ts : List Template) (a : Arguments) (dss : List (List Data)) :
    List Verdict :=
  (a.data.zip dss).flatMap fun (source, ds) =>
    (split a.each ds).zipIdx.map fun (d, index) => ⟨source, index, Session.Ledger.accepts s ts d⟩

variable {files : Source.Files} {home : Source.Entry} {input : List UInt8} {a : Arguments}

theorem candidates_eq (each : Bool) (source : String) :
    candidates files input each source = (documents files input source).map (split each) := by
  unfold candidates documents
  by_cases h : source = "-"
  . rw [if_pos h, if_pos h]
    cases Source.inputCandidates input with
    | error e => rfl
    | ok ds => rfl
  . rw [if_neg h, if_neg h]
    cases Source.candidates files source with
    | error e => rfl
    | ok ds => rfl

theorem inputAt_cons_succ (source : String) (sources : List String) (i : Nat) :
    inputAt input (source :: sources) (i + 1)
      = inputAt (if source = "-" then [] else input) sources i := by
  unfold inputAt
  rw [List.take_succ_cons]
  by_cases h : source = "-"
  . simp [h]
  . simp [h, Ne.symm h]

theorem allDocuments_cons (source : String) (sources : List String) :
    allDocuments files input (source :: sources)
      = documents files input source
        :: allDocuments files (if source = "-" then [] else input) sources := by
  unfold allDocuments
  rw [List.mapIdx_cons]
  simp only [inputAt_cons_succ]
  rfl

section Templates

variable {load load' : String → Except Source.Error (List Template)}

theorem foldlM_loadAll_eq_ok_iff {names : List String} {v v' : Validator} :
    names.foldlM (fun v name => return v.loadAll (← load name)) v = Except.ok v'
      ↔ ∃ tss : List (List Template), names.map load = tss.map .ok
        ∧ v' = v.loadAll tss.flatten := by
  induction names generalizing v with
  | nil =>
    constructor
    . intro h
      cases h
      exact ⟨[], rfl, rfl⟩
    . rintro ⟨tss, htss, rfl⟩
      rw [List.map_nil, eq_comm, List.map_eq_nil_iff] at htss
      rw [htss]
      rfl
  | cons name names ih =>
    rw [List.foldlM_cons, Outcome.bind_eq_ok_iff]
    simp only [ih]
    constructor
    . intro ⟨v₁, h₁, tss, htss, hv⟩
      obtain ⟨ts, hload, h₁⟩ := Outcome.bind_eq_ok_iff.mp h₁
      cases h₁
      refine ⟨ts :: tss, by rw [List.map_cons, hload, htss]; rfl, ?_⟩
      rw [hv, List.flatten_cons, Validator.loadAll_append]
    . intro ⟨tss, htss, hv⟩
      cases tss with
      | nil => contradiction
      | cons ts tss =>
        rw [List.map_cons, List.map_cons, List.cons.injEq] at htss
        refine ⟨v.loadAll ts, by rw [htss.1]; rfl, tss, htss.2, ?_⟩
        rw [hv, List.flatten_cons, Validator.loadAll_append]

theorem foldlM_loadAll_congr {names : List String} (h : ∀ name ∈ names, load' name = load name)
    (v : Validator) :
    names.foldlM (fun v name => return v.loadAll (← load' name)) v
      = names.foldlM (fun v name => return v.loadAll (← load name)) v := by
  induction names generalizing v with
  | nil => rfl
  | cons name names ih =>
    rw [List.forall_mem_cons] at h
    rw [List.foldlM_cons, List.foldlM_cons, h.1]
    simp only [ih h.2]

end Templates

theorem validator_eq_ok_iff {v : Validator} :
    validator files home a = .ok v
      ↔ ∃ s tss, Loads files home a s tss ∧ v = s.validator.loadAll tss.flatten := by
  unfold validator
  rw [Outcome.bind_eq_ok_iff]
  simp only [foldlM_loadAll_eq_ok_iff]
  constructor
  . intro ⟨s, hs, tss, htss, hv⟩
    exact ⟨s, tss, ⟨hs, htss⟩, hv⟩
  . intro ⟨s, tss, hloads, hv⟩
    exact ⟨s, hloads.settings, tss, hloads.templates, hv⟩

theorem Loads.flatten_eq {s : Settings} {tss : List (List Template)}
    (h : Loads files home a s tss) :
    tss.flatten
      = a.templates.flatMap fun name =>
          (Source.templates files s.wildcard name).toOption.getD [] := by
  have htss : (a.templates.map (Source.templates files s.wildcard)).map (·.toOption.getD [])
      = tss := by
    rw [h.templates, List.map_map]
    exact List.map_id tss
  rw [← htss, List.map_map]
  rfl

theorem eq_of_allDocuments {sources : List String} {dss : List (List Data)}
    (h : allDocuments files input sources = dss.map .ok) :
    dss = (allDocuments files input sources).map (·.toOption.getD []) := by
  rw [h, List.map_map]
  exact (List.map_id dss).symm

theorem exists_documents_of_judge {v : Validator} {each : Bool} {sources : List String}
    {verdicts : List Verdict} (h : judge v files each input sources = .ok verdicts) :
    ∃ dss : List (List Data), allDocuments files input sources = dss.map .ok := by
  induction sources generalizing input verdicts with
  | nil => exact ⟨[], rfl⟩
  | cons source sources ih =>
    obtain ⟨candidates, hcandidates, h⟩ := Outcome.bind_eq_ok_iff.mp h
    -- that the source was validated says nothing about the sources behind it
    obtain ⟨results, -, h⟩ := Outcome.bind_eq_ok_iff.mp h
    obtain ⟨more, hmore, -⟩ := Outcome.bind_eq_ok_iff.mp h
    rw [Outcome.mapError_eq_ok_iff, candidates_eq, Outcome.map_eq_ok_iff] at hcandidates
    obtain ⟨ds, hds, -⟩ := hcandidates
    obtain ⟨dss, hdss⟩ := ih hmore
    exact ⟨ds :: dss, by rw [allDocuments_cons, hds, hdss]; rfl⟩

theorem judge_eq {v : Validator} {valid : Data → Bool}
    (hv : ∀ ds, v.verdicts ds = .ok (ds.map valid)) {each : Bool} {sources : List String}
    {dss : List (List Data)} (h : allDocuments files input sources = dss.map .ok) :
    judge v files each input sources
      = .ok ((sources.zip dss).flatMap fun (source, ds) =>
          (split each ds).zipIdx.map fun (d, index) => ⟨source, index, valid d⟩) := by
  induction sources generalizing input dss with
  | nil => rfl
  | cons source sources ih =>
    rw [allDocuments_cons] at h
    cases dss with
    | nil => contradiction
    | cons ds dss =>
      rw [List.map_cons, List.cons.injEq] at h
      apply Outcome.bind_eq_ok_iff.mpr
      refine ⟨split each ds, by rw [candidates_eq, h.1]; rfl, ?_⟩
      apply Outcome.bind_eq_ok_iff.mpr
      refine ⟨(split each ds).map valid, by rw [hv]; rfl, ?_⟩
      apply Outcome.bind_eq_ok_iff.mpr
      refine ⟨_, ih h.2, ?_⟩
      rw [List.zip_cons_cons, List.flatMap_cons, List.zipIdx_map, List.map_map]
      rfl

theorem execute_ok_cases {r : String × Bool} (h : execute files home input a = .ok r) :
    (∃ s tss, Loads files home a s tss)
      ∧ (a.printPaths = true
        ∨ a.data ≠ []
          ∧ ∃ dss : List (List Data), allDocuments files input a.data = dss.map .ok) := by
  obtain ⟨v, hv, h⟩ := Outcome.bind_eq_ok_iff.mp h
  rw [Outcome.mapError_eq_ok_iff, validator_eq_ok_iff] at hv
  obtain ⟨s, tss, hloads, -⟩ := hv
  refine ⟨⟨s, tss, hloads⟩, ?_⟩
  split at h
  . next hp => exact .inl hp
  . split at h
    . contradiction
    . next hdata =>
      obtain ⟨verdicts, hjudge, -⟩ := Outcome.bind_eq_ok_iff.mp h
      exact .inr ⟨by simpa using hdata, exists_documents_of_judge hjudge⟩

theorem not_fails_of_execute {r : String × Bool} (h : execute files home input a = .ok r) :
    ¬ Fails files home input a := by
  obtain ⟨⟨s, tss, hloads⟩, hdata⟩ := execute_ok_cases h
  intro hfails
  cases hfails with
  | settings he =>
    rw [hloads.settings] at he
    contradiction
  | @template s' name e hs hname he =>
    rw [hloads.settings, Except.ok.injEq] at hs
    subst hs
    have hmem := List.mem_map_of_mem (f := Source.templates files s.wildcard) hname
    rw [hloads.templates, he] at hmem
    simp at hmem
  | noData hp he =>
    simp [hp, he] at hdata
  | data hp he =>
    simp only [hp, Bool.false_eq_true, false_or] at hdata
    obtain ⟨-, dss, hdss⟩ := hdata
    rw [hdss] at he
    simp at he

theorem exists_loads (h : ¬ Fails files home input a) : ∃ s tss, Loads files home a s tss := by
  cases hs : settings files home a with
  | error e => exact absurd (.settings hs) h
  | ok s =>
    have htss : ∃ tss : List (List Template),
        a.templates.map (Source.templates files s.wildcard) = tss.map .ok := by
      apply Outcome.exists_map_ok
      intro r hr e he
      obtain ⟨name, hname, hr⟩ := List.mem_map.mp hr
      exact h (.template hs hname (hr.trans he))
    obtain ⟨tss, htss⟩ := htss
    exact ⟨s, tss, hs, htss⟩

theorem exists_allDocuments (h : ¬ Fails files home input a) (hp : a.printPaths = false) :
    ∃ dss : List (List Data), allDocuments files input a.data = dss.map .ok := by
  apply Outcome.exists_map_ok
  rintro _ hmem e rfl
  exact h (.data hp hmem)

theorem execute_paths {s : Settings} {tss : List (List Template)}
    (hloads : Loads files home a s tss)
    (hp : a.printPaths = true) :
    execute files home input a
      = .ok (String.join ((tss.flatten.flatMap fun t =>
          (Compile.compile s.compileOptions t).paths).map (· ++ "\n")), true) := by
  have hv : validator files home a = .ok (s.validator.loadAll tss.flatten) :=
    validator_eq_ok_iff.mpr ⟨s, tss, hloads, rfl⟩
  have hpaths := Session.Ledger.paths_loadAll_eq s tss.flatten
  unfold Session.Ledger.paths at hpaths
  unfold execute
  rw [hv, hp, ← hpaths]
  rfl

theorem execute_verdicts {s : Settings} {tss : List (List Template)} {dss : List (List Data)}
    (hloads : Loads files home a s tss) (hfit : ∀ t ∈ tss.flatten, t.positionsFit = true)
    (hp : a.printPaths = false) (hdata : a.data ≠ [])
    (hdss : allDocuments files input a.data = dss.map .ok) :
    execute files home input a
      = .ok (report (a.format?.getD .text) (verdictsOf s tss.flatten a dss),
          (verdictsOf s tss.flatten a dss).all Verdict.valid) := by
  have hv : validator files home a = .ok (s.validator.loadAll tss.flatten) :=
    validator_eq_ok_iff.mpr ⟨s, tss, hloads, rfl⟩
  have hverdicts : ∀ ds, (s.validator.loadAll tss.flatten).verdicts ds
      = .ok (ds.map (Session.Ledger.accepts s tss.flatten)) := by
    intro ds
    unfold Validator.verdicts
    rw [Validator.validate_of_validateOne (Session.Ledger.validateOne_eq s hfit)]
  have hempty : a.data.isEmpty = false := by simpa using hdata
  unfold execute
  rw [hv, hp, hempty]
  change (judge _ _ _ _ _ >>= _) = _
  rw [judge_eq hverdicts hdss]
  rfl

section Congruence

variable {files' : Source.Files} {home' : Source.Entry}

theorem templates_congr {name : String} (h : files' name = files name) (wildcard : String) :
    Source.templates files' wildcard name = Source.templates files wildcard name := by
  unfold Source.templates Source.readText
  rw [h]

theorem settings_congr (hhome : a.config? = none → home' = home)
    (h : ∀ name ∈ a.config?, files' name = files name) :
    settings files' home' a = settings files home a := by
  unfold settings Source.settings
  cases hconfig : a.config? with
  | none =>
    rw [hhome hconfig]
  | some name =>
    dsimp only
    rw [h name hconfig]

theorem validator_congr (hs : settings files' home' a = settings files home a)
    (h : ∀ name ∈ a.templates, files' name = files name) :
    validator files' home' a = validator files home a := by
  unfold validator
  rw [hs]
  apply bind_congr
  intro s
  exact foldlM_loadAll_congr (fun name hname => templates_congr (h name hname) s.wildcard) _

theorem execute_congr {input' : List UInt8} {data' : List String}
    (hhome : a.config? = none → home' = home)
    (h : ∀ name ∈ a.config?.toList ++ a.templates, files' name = files name)
    (hp : a.printPaths = true) :
    execute files' home' input' { a with data := data' } = execute files home input a := by
  rw [List.forall_mem_append] at h
  have hs : settings files' home' a = settings files home a :=
    settings_congr hhome (fun name hname => h.1 name (Option.mem_toList.mpr hname))
  have hv : validator files' home' { a with data := data' } = validator files home a :=
    validator_congr hs h.2
  unfold execute
  rw [hv]
  apply bind_congr
  intro v
  rw [if_pos hp, if_pos hp]

end Congruence

variable {arguments : List String}

theorem result_of_execute_eq_ok {output : String} {valid : Bool}
    (h : Request.ofArguments? arguments = some (.run a))
    (hexecute : execute files home input a = .ok (output, valid)) :
    result files input arguments home
      = { status := if valid then 0 else 1, output := output } := by
  unfold result
  rw [h]
  dsimp only
  rw [hexecute]

theorem result_of_fails (h : Request.ofArguments? arguments = some (.run a))
    (hfails : Fails files home input a) :
    (result files input arguments home).status = 2
      ∧ (result files input arguments home).output = "" := by
  unfold result
  rw [h]
  dsimp only
  cases hexecute : execute files home input a with
  | error e => exact ⟨rfl, rfl⟩
  | ok r => exact absurd hfails (not_fails_of_execute hexecute)

/--
A run does all or nothing. If it fails, its status is 2 and nothing is printed. Otherwise, where
paths are asked for, it prints those of the templates of all files in order, each on a line, and
neither the data nor what stands in them matter. Where they are not, it prints one verdict for each
candidate of each source, in order: as text a line each, and as JSON an array that reads back as an
object each. In both formats the status is 0 if all candidates are valid and 1 if one is not. For
the verdicts the positions in the templates have to fit 64 bits, as those in any list in memory do,
and for JSON those of the candidates too.
-/
theorem result_of_run (files : Source.Files) (home : Source.Entry) (input : List UInt8)
    (a : Arguments) (arguments : List String)
    (h : Request.ofArguments? arguments = some (.run a)) :
    (Fails files home input a →
      (result files input arguments home).status = 2
      ∧ (result files input arguments home).output = "")
    ∧ (¬ Fails files home input a → a.printPaths = true → ∃ s tss, Loads files home a s tss
      ∧ (result files input arguments home).status = 0
      ∧ (result files input arguments home).output
        = String.join ((tss.flatten.flatMap fun t =>
            (Compile.compile s.compileOptions t).paths).map (· ++ "\n"))
      ∧ ∀ files' home' input' data' arguments', (a.config? = none → home' = home) →
        (∀ name ∈ a.config?.toList ++ a.templates, files' name = files name) →
        Request.ofArguments? arguments' = some (.run { a with data := data' }) →
        result files' input' arguments' home' = result files input arguments home)
    ∧ (¬ Fails files home input a → a.printPaths = false → ∃ s tss dss, Loads files home a s tss
      ∧ allDocuments files input a.data = dss.map .ok
      ∧ ((∀ t ∈ tss.flatten, t.positionsFit = true) →
        ∀ vs, vs = verdictsOf s tss.flatten a dss → ∀ format? arguments',
          Request.ofArguments? arguments' = some (.run { a with format? := format? }) →
          (result files input arguments' home).status = (if vs.all Verdict.valid then 0 else 1)
          ∧ (format?.getD .text = .text →
            (result files input arguments' home).output
              = String.join (vs.map fun v => v.source ++ "#" ++ toString v.index ++ "\t"
                  ++ (if v.valid then "PASS" else "FAIL") ++ "\n"))
          ∧ (format?.getD .text = .json → (∀ v ∈ vs, fitsWord v.index = true) →
            Json.parse? (result files input arguments' home).output
              = some (.array (vs.map fun v => .object [("source", .string v.source),
                  ("index", .number (.integer v.index)), ("valid", .boolean v.valid)]))))) := by
  refine ⟨result_of_fails h, ?_, ?_⟩
  . intro hfails hp
    obtain ⟨s, tss, hloads⟩ := exists_loads hfails
    have hexecute : execute files home input a = _ := execute_paths hloads hp
    have hresult := result_of_execute_eq_ok h hexecute
    refine ⟨s, tss, hloads, by rw [hresult]; rfl, by rw [hresult], ?_⟩
    intro files' home' input' data' arguments' hhome hfiles h'
    unfold result
    rw [h, h']
    dsimp only
    rw [execute_congr hhome hfiles hp]
  . intro hfails hp
    obtain ⟨s, tss, hloads⟩ := exists_loads hfails
    obtain ⟨dss, hdss⟩ := exists_allDocuments hfails hp
    have hdata : a.data ≠ [] := fun he => hfails (.noData hp he)
    refine ⟨s, tss, dss, hloads, hdss, ?_⟩
    rintro hfit vs rfl format? arguments' h'
    -- nothing that is loaded depends on the format
    have hloads' : Loads files home { a with format? := format? } s tss :=
      ⟨hloads.settings, hloads.templates⟩
    rw [result_of_execute_eq_ok h' (execute_verdicts hloads' hfit hp hdata hdss)]
    refine ⟨rfl, ?_, ?_⟩
    . intro hformat
      dsimp only
      rw [hformat]
      rfl
    . intro hformat hindices
      dsimp only
      rw [hformat]
      exact parse?_report hindices

def twoFiles : Source.Files
  | "t" => .file [0x61]
  | "d" => .file [0x5B, 0x61, 0x2C, 0x62, 0x5D]
  | _ => .missing

theorem result_of_run_two_files :
    (result twoFiles [0x61] ["-t", "t", "--each", "d", "-"] .missing).output
        = "d#0\tPASS\nd#1\tFAIL\n-#0\tPASS\n"
      ∧ (result twoFiles [0x61] ["-t", "t", "--each", "d", "-"] .missing).status = 1
      ∧ (result twoFiles [0x61] ["-t", "t", "--each", "--format", "json", "d", "-"] .missing).output
        = "[\n  \x7b\n    \"source\": \"d\",\n    \"index\": 0,\n    \"valid\": true\n  \x7d,\n"
          ++ "  \x7b\n    \"source\": \"d\",\n    \"index\": 1,\n    \"valid\": false\n  \x7d,\n"
          ++ "  \x7b\n    \"source\": \"-\",\n    \"index\": 0,\n    \"valid\": true\n  \x7d\n]\n"
      ∧ Json.parse?
          (result twoFiles [0x61] ["-t", "t", "--each", "--format", "json", "d", "-"] .missing).output
        = some (.array [
            .object [("source", .string "d"), ("index", .number (.integer 0)),
              ("valid", .boolean true)],
            .object [("source", .string "d"), ("index", .number (.integer 1)),
              ("valid", .boolean false)],
            .object [("source", .string "-"), ("index", .number (.integer 0)),
              ("valid", .boolean true)]]) := by
  have houtput : (result twoFiles [0x61] ["-t", "t", "--each", "d", "-"] .missing).output
      = "d#0\tPASS\nd#1\tFAIL\n-#0\tPASS\n" := by decide +kernel
  have hstatus : (result twoFiles [0x61] ["-t", "t", "--each", "d", "-"] .missing).status = 1 := by
    decide +kernel
  refine ⟨houtput, hstatus, by decide +kernel, ?_⟩
  obtain ⟨hfailing, -, hjudging⟩ := result_of_run twoFiles .missing [0x61]
    ⟨["t"], ["d", "-"], false, true, false, none, none⟩ ["-t", "t", "--each", "d", "-"]
    (by decide +kernel)
  have hfails : ¬ Fails twoFiles .missing [0x61]
      ⟨["t"], ["d", "-"], false, true, false, none, none⟩ := by
    intro hfails
    have htwo := (hfailing hfails).1
    rw [hstatus] at htwo
    exact absurd htwo (by decide)
  obtain ⟨s, tss, dss, hloads, hdss, hreport⟩ := hjudging hfails rfl
  have hsettings : (settings twoFiles .missing
      ⟨["t"], ["d", "-"], false, true, false, none, none⟩).toOption = some {} := by
    decide +kernel
  rw [hloads.settings] at hsettings
  cases hsettings
  have hfit : ∀ t ∈ tss.flatten, t.positionsFit = true := by
    rw [hloads.flatten_eq]
    decide +kernel
  have hverdicts : [⟨"d", 0, true⟩, ⟨"d", 1, false⟩, ⟨"-", 0, true⟩]
      = verdictsOf {} tss.flatten ⟨["t"], ["d", "-"], false, true, false, none, none⟩ dss := by
    rw [hloads.flatten_eq, eq_of_allDocuments hdss]
    decide +kernel
  obtain ⟨-, -, hjson⟩ := hreport hfit _ hverdicts (some .json)
    ["-t", "t", "--each", "--format", "json", "d", "-"] (by decide +kernel)
  exact hjson rfl (by decide)

end Command

end TemplateCheck
