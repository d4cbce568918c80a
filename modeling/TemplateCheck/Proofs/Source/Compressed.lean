import Mathlib.Data.List.Basic
import TemplateCheck.Outcome
import TemplateCheck.Proofs.Source.Names
import TemplateCheck.Source.Load

/-!
This module contains that compression does not change what is loaded: whether a file is compressed
is told from the last part of its name and whether it holds JSON Lines from the end of the whole
name, and the two agree for every name that a file can have.
-/

namespace TemplateCheck

namespace Source

/--
Whether a file can have a name: no file has the empty one, and a name that ends with a slash is that
of a directory.
-/
def NamesFile (name : String) : Prop :=
  ∃ s c, name.toList = s ++ [c] ∧ c ≠ '/'

theorem find_append_nil (files : List (List (List Char) × List UInt8)) (ps : List (List Char))
    (done : List (List Char)) (bytes : List UInt8) :
    Files.find files done (ps ++ [[]]) ≠ .file bytes := by
  induction ps generalizing done with
  | nil =>
    intro h
    contradiction
  | cons p ps ih =>
    rw [List.cons_append, Files.find]
    split
    . exact ih _
    . rw [if_neg (by simp)]
      exact Entry.noConfusion

theorem namesFile_of_ofList {files : List (String × List UInt8)} {name : String}
    {bytes : List UInt8} (h : Files.ofList files name = .file bytes) : NamesFile name := by
  unfold Files.ofList at h
  dsimp only at h
  split at h
  . contradiction
  . next hname =>
    cases hlast : name.toList.getLast? with
    | none =>
      have hempty : name = "" := by simpa using hlast
      rw [hempty] at hname
      contradiction
    | some c =>
      obtain ⟨s, hs⟩ := List.getLast?_eq_some_iff.mp hlast
      refine ⟨s, c, hs, ?_⟩
      rintro rfl
      unfold parts at h
      rw [hs, List.splitOn_append_cons_self, List.splitOn_nil] at h
      exact find_append_nil _ _ _ _ h

theorem extension?_eq_gz {name : String} {s : List Char} {c : Char}
    (hname : name.toList = s ++ c :: ".gz".toList) (hc : c ≠ '/') :
    extension? name = some ['g', 'z'] := by
  have hslash : '/' ∉ c :: ".gz".toList := by
    rw [List.mem_cons, not_or]
    exact ⟨hc.symm, by decide⟩
  obtain ⟨p, hp⟩ := exists_lastPart?_eq ⟨s, hname.symm⟩ hslash (by simp)
  have hdots : p ++ [c, '.', 'g', 'z'] ≠ ['.', '.'] := by
    intro h
    have hlength := congrArg List.length h
    rw [List.length_append] at hlength
    change p.length + 4 = 2 at hlength
    omega
  unfold extension?
  rw [hp, Option.bind_eq_bind, Option.bind_some]
  simp [hdots]

theorem isCompressed_append_gz {name : String} (h : NamesFile name) :
    isCompressed (name ++ ".gz") = true := by
  obtain ⟨s, c, hs, hc⟩ := h
  have hname : (name ++ ".gz").toList = s ++ c :: ".gz".toList := by
    rw [String.toList_append, hs, List.append_assoc]
    rfl
  unfold isCompressed
  rw [extension?_eq_gz hname hc]
  rfl

def endsLikeLines (s : List Char) : Bool :=
  ".jsonl".toList.reverse.isPrefixOf s.reverse || ".ndjson".toList.reverse.isPrefixOf s.reverse

theorem isJsonLines_of_gz {name : String} {s : List Char} (h : name.toList = s ++ ".gz".toList) :
    isJsonLines name = endsLikeLines s := by
  unfold isJsonLines
  rw [h, List.reverse_append]
  rfl

theorem isJsonLines_of_not_gz {name : String} (h : ¬ ".gz".toList <:+ name.toList) :
    isJsonLines name = endsLikeLines name.toList := by
  unfold isJsonLines
  dsimp only
  cases hbase : ".gz".toList.reverse.isPrefixOf? name.toList.reverse with
  | none => rfl
  | some base =>
    rw [List.isPrefixOf?_eq_some_iff_append_eq] at hbase
    exact absurd (List.reverse_prefix.mp ⟨base, hbase⟩) h

theorem endsLikeLines_of_gz (s : List Char) : endsLikeLines (s ++ ".gz".toList) = false := by
  unfold endsLikeLines
  rw [List.reverse_append]
  rfl

theorem endsLikeLines_of_slash (s : List Char) : endsLikeLines (s ++ ['/']) = false := by
  unfold endsLikeLines
  rw [List.reverse_append]
  rfl

theorem isJsonLines_append_gz {name : String} (h : extension? name ≠ some ['g', 'z']) :
    isJsonLines (name ++ ".gz") = isJsonLines name := by
  rw [isJsonLines_of_gz String.toList_append]
  by_cases hgz : ".gz".toList <:+ name.toList
  . obtain ⟨s, hs⟩ := hgz
    rw [isJsonLines_of_gz hs.symm, ← hs, endsLikeLines_of_gz]
    cases hlast : s.getLast? with
    | none =>
      rw [List.getLast?_eq_none_iff.mp hlast]
      rfl
    | some c =>
      obtain ⟨s', rfl⟩ := List.getLast?_eq_some_iff.mp hlast
      -- the ending is a whole part of the name, or it would be an extension
      by_cases hc : c = '/'
      . rw [hc, endsLikeLines_of_slash]
      . rw [List.append_assoc] at hs
        exact absurd (extension?_eq_gz hs.symm hc) h
  . exact (isJsonLines_of_not_gz hgz).symm

theorem isCompressed_eq_false {name : String} (h : extension? name ≠ some ['g', 'z']) :
    isCompressed name = false := by
  unfold isCompressed
  exact beq_eq_false_iff_ne.mpr h

variable {files packed : Files} {name text : String} {bytes compressed : List UInt8}

theorem readText_eq_ok (h : isCompressed name = false) (hfile : files name = .file bytes)
    (htext : Text.ofUtf8? bytes = some text) : readText files name = .ok text := by
  unfold readText
  rw [h, hfile]
  change orElse _ (Text.ofUtf8? bytes) = _
  rw [htext]
  rfl

theorem readText_eq_ok_of_compressed (h : isCompressed name = true)
    (hfile : files name = .file compressed) (hbytes : Gzip.decompress? compressed = some bytes)
    (htext : Text.ofUtf8? bytes = some text) : readText files name = .ok text := by
  unfold readText decompressed?
  rw [h, hfile]
  change orElse _ ((Gzip.decompress? compressed).bind _) = _
  rw [hbytes, Option.bind_some, htext]
  rfl

theorem candidates_eq (h : readText files name = .ok text) :
    candidates files name
      = (if isJsonLines name then Document.jsonLines text
        else Document.candidates text).mapError (.data name) := by
  unfold candidates
  rw [h]
  rfl

theorem templates_eq (wildcard : String) (h : readText files name = .ok text) :
    templates files wildcard name
      = (Document.templates wildcard text).mapError (.template name) := by
  unfold templates
  rw [h]
  rfl

/--
Compression is transparent. A file whose name has not the extension of compressed files has the same
format, the same candidates and for every wildcard the same templates as a file that holds the same
text compressed and has this extension behind its name; and where one of them cannot be read, the
other cannot for the same cause.
-/
theorem candidates_append_gz (hname : NamesFile name)
    (hextension : extension? name ≠ some ['g', 'z']) (hfile : files name = .file bytes)
    (hpacked : packed (name ++ ".gz") = .file compressed)
    (hbytes : Gzip.decompress? compressed = some bytes)
    (htext : Text.ofUtf8? bytes = some text) :
    isJsonLines (name ++ ".gz") = isJsonLines name
    ∧ (∀ ds, candidates packed (name ++ ".gz") = .ok ds ↔ candidates files name = .ok ds)
    ∧ (∀ cause, candidates packed (name ++ ".gz") = .error (.data (name ++ ".gz") cause)
      ↔ candidates files name = .error (.data name cause))
    ∧ (∀ wildcard ts, templates packed wildcard (name ++ ".gz") = .ok ts
      ↔ templates files wildcard name = .ok ts)
    ∧ ∀ wildcard cause,
      templates packed wildcard (name ++ ".gz") = .error (.template (name ++ ".gz") cause)
        ↔ templates files wildcard name = .error (.template name cause) := by
  have hlines := isJsonLines_append_gz hextension
  have hread := readText_eq_ok (isCompressed_eq_false hextension) hfile htext
  have hread' := readText_eq_ok_of_compressed (isCompressed_append_gz hname) hpacked hbytes htext
  have hdata : ∀ n cause cause', Error.data n cause = .data n cause' → cause = cause' := by
    intro n cause cause' h
    exact (Error.data.inj h).2
  have htemplate : ∀ n cause cause', Error.template n cause = .template n cause' →
      cause = cause' := by
    intro n cause cause' h
    exact (Error.template.inj h).2
  rw [candidates_eq hread, candidates_eq hread', hlines]
  refine ⟨rfl, ?_, ?_, ?_, ?_⟩
  . intro ds
    rw [Outcome.mapError_eq_ok_iff, Outcome.mapError_eq_ok_iff]
  . intro cause
    rw [Outcome.mapError_eq_error_iff (hdata _), Outcome.mapError_eq_error_iff (hdata _)]
  . intro wildcard ts
    rw [templates_eq wildcard hread, templates_eq wildcard hread']
    rw [Outcome.mapError_eq_ok_iff, Outcome.mapError_eq_ok_iff]
  . intro wildcard cause
    rw [templates_eq wildcard hread, templates_eq wildcard hread']
    rw [Outcome.mapError_eq_error_iff (htemplate _), Outcome.mapError_eq_error_iff (htemplate _)]

theorem candidates_append_gz_hidden :
    NamesFile "a.jsonl/.gz" ∧ extension? "a.jsonl/.gz" ≠ some ['g', 'z']
    ∧ Gzip.decompress? [0x1F, 0x8B, 0x08, 0x00, 0x00, 0x00, 0x00, 0x00, 0x00, 0xFF, 0x01, 0x03, 0x00,
      0xFC, 0xFF, 0x31, 0x0A, 0x32, 0xBF, 0xEF, 0xD0, 0xE8, 0x03, 0x00, 0x00, 0x00]
      = some [0x31, 0x0A, 0x32]
    ∧ Text.ofUtf8? [0x31, 0x0A, 0x32] = some "1\n2"
    ∧ isJsonLines ("a.jsonl/.gz" ++ ".gz") = isJsonLines "a.jsonl/.gz"
    ∧ ∀ ds, candidates (fun _ => .file [0x1F, 0x8B, 0x08, 0x00, 0x00, 0x00, 0x00, 0x00, 0x00, 0xFF,
        0x01, 0x03, 0x00, 0xFC, 0xFF, 0x31, 0x0A, 0x32, 0xBF, 0xEF, 0xD0, 0xE8, 0x03, 0x00, 0x00,
        0x00]) ("a.jsonl/.gz" ++ ".gz") = .ok ds
      ↔ candidates (fun _ => .file [0x31, 0x0A, 0x32]) "a.jsonl/.gz" = .ok ds := by
  have hfile : Files.ofList [("a.jsonl/.gz", [0x31, 0x0A, 0x32])] "a.jsonl/.gz"
      = .file [0x31, 0x0A, 0x32] := by
    decide +kernel
  have hname := namesFile_of_ofList hfile
  have hextension : extension? "a.jsonl/.gz" ≠ some ['g', 'z'] := by decide
  have hbytes : Gzip.decompress? [0x1F, 0x8B, 0x08, 0x00, 0x00, 0x00, 0x00, 0x00, 0x00, 0xFF, 0x01,
      0x03, 0x00, 0xFC, 0xFF, 0x31, 0x0A, 0x32, 0xBF, 0xEF, 0xD0, 0xE8, 0x03, 0x00, 0x00, 0x00]
      = some [0x31, 0x0A, 0x32] := by
    decide +kernel
  have htext : Text.ofUtf8? [0x31, 0x0A, 0x32] = some "1\n2" := by decide +kernel
  refine ⟨hname, hextension, hbytes, htext, ?_⟩
  exact And.imp_right And.left (candidates_append_gz hname hextension rfl rfl hbytes htext)

end Source

end TemplateCheck
