import CommentScope.Languages
import CommentScope.Proofs.DiskPaths
import CommentScope.Proofs.Malformed
import CommentScope.Proofs.Scopes
import CommentScope.Workspace

/-!
# Reports on files

Every file that is to be scanned has a report, and the report does not depend on the other files
(`Workspace.scanFiles_fit`). It has a tree unless the file cannot be read or is in no known
language; without a tree it says one reason and nothing else, and with a tree all of its findings
can be described.

A report is there because each fault on the way has words. Of the faults that have none, two would
come from a draft or from a walk. But a draft is at fault for no concrete tree
(`Grammar.exists_span_fault`), and the walk of a tree that was read finishes, so that collecting its
findings cannot fail either (`exists_findings?`). Findings name ancestors of tokens, which are nodes
of the tree they were found in (`Tree.knows_of_findings?`).
-/

namespace CommentScope

open Outcome

/-! ### Findings of a tree -/

/-- What is known of the nodes around a comment, one after the other. -/
def Scopes.toList {α : Type} (s : Scopes α) : List α :=
  s.member.toList ++ s.type.toList ++ s.space.toList

namespace Tree

variable {t : Tree} {f : Finding}

/-- Whether all that a finding refers to are nodes of a tree. -/
def Knows (t : Tree) (f : Finding) : Prop := ∀ k ∈ f.scopes.toList, ∃ i : Fin t.size, k = i.val

theorem knows_findingAt (comment : Trivia) (i : Fin t.size) : t.Knows (t.findingAt comment i) := by
  have hval : ∀ a : Option (Fin t.size), ∀ k ∈ (a.map fun i ↦ (i.val : Int)).toList,
      ∃ i : Fin t.size, k = i.val := by
    intro a k hk
    obtain ⟨j, -, rfl⟩ := Option.map_eq_some_iff.1 (Option.mem_toList.1 hk)
    exact ⟨j, rfl⟩
  intro k hk
  rw [Scopes.toList, List.mem_append, List.mem_append] at hk
  rcases hk with (hk | hk) | hk
  · exact hval _ k hk
  · exact hval _ k hk
  · exact hval _ k hk

/-- **A tree knows what is found in it.** -/
theorem knows_of_findings? {accepts : Matcher} {found : List Finding}
    (h : t.findings? accepts = .ok found) (hf : f ∈ found) : t.Knows f := by
  rw [findings?] at h
  split at h
  · cases h
    obtain ⟨⟨comment, i⟩, -, rfl⟩ := List.mem_map.1 hf
    exact knows_findingAt comment i
  · cases h
  · cases h

theorem exists_readAt {α : Type} (read : Node → Option α) {a : Option Int}
    (h : ∀ k ∈ a.toList, ∃ i : Fin t.size, k = i.val) : ∃ b, t.readAt read a = .ok b := by
  cases a with
  | none => exact ⟨none, rfl⟩
  | some k =>
    obtain ⟨i, rfl⟩ := h k (Option.mem_toList.2 rfl)
    refine ⟨read (t.node i), ?_⟩
    rw [readAt, resolve?_natCast i.isLt]

/-- **What a tree knows can be described.** -/
theorem Knows.exists_describe? (h : t.Knows f) : ∃ d, t.describe? f = .ok d := by
  have hmember : ∀ k ∈ f.scopes.member.toList, ∃ i : Fin t.size, k = i.val :=
    fun k hk ↦ h k (List.mem_append_left _ (List.mem_append_left _ hk))
  have htype : ∀ k ∈ f.scopes.type.toList, ∃ i : Fin t.size, k = i.val :=
    fun k hk ↦ h k (List.mem_append_left _ (List.mem_append_right _ hk))
  have hspace : ∀ k ∈ f.scopes.space.toList, ∃ i : Fin t.size, k = i.val :=
    fun k hk ↦ h k (List.mem_append_right _ hk)
  obtain ⟨member, hmember⟩ := exists_readAt (fun n ↦ some (memberName n)) hmember
  obtain ⟨type, htype⟩ := exists_readAt Node.name htype
  obtain ⟨space, hspace⟩ := exists_readAt Node.name hspace
  exact exists_bind_eq_ok hmember (exists_bind_eq_ok htype (exists_bind_eq_ok hspace ⟨_, rfl⟩))

end Tree

/-! ### Faults of a scan -/

/-- **Only spans are at fault** when a concrete tree cannot be read. -/
theorem Grammar.exists_span_fault {g : Grammar} {source : ByteArray} {c : Concrete}
    {fault : Grammar.Fault} (h : g.tree? source c = .error fault) : ∃ f, fault = .span f := by
  rw [tree?_eq] at h
  rcases bind_eq_error_iff.1 h with hspan | ⟨span, -, h⟩
  · obtain ⟨f, -, rfl⟩ := mapError_eq_error_iff.1 hspan
    exact ⟨f, rfl⟩
  · rcases bind_eq_error_iff.1 h with hbelow | ⟨below, -, h⟩
    · obtain ⟨f, -, rfl⟩ := mapError_eq_error_iff.1 hbelow
      exact ⟨f, rfl⟩
    · cases h

namespace Scanner

variable {s : Scanner} {source path : String} {language : Option Language} {hash : Option String}

theorem fault_of_languageOf {fault : ScanFault} (h : s.languageOf path language = .error fault) :
    fault = .unsupportedFile path := by
  rw [languageOf] at h
  split at h
  · cases h
    rfl
  · cases h

theorem fault_of_frontEndOf {l : Language} {fault : ScanFault}
    (h : s.frontEndOf l = .error fault) : fault = .unsupportedLanguage l := by
  rw [frontEndOf] at h
  split at h
  · cases h
    rfl
  · cases h

/-- **A scan of a text is at fault for the language or for a span**, and for nothing else. -/
theorem fault_of_scanSource {fault : ScanFault}
    (h : s.scanSource (some source) path language hash = .error fault) :
    fault = .unsupportedFile path ∨ (∃ l, fault = .unsupportedLanguage l) ∨
      ∃ f, fault = .unreadable (.span f) := by
  rcases bind_eq_error_iff.1 h with hl | ⟨l, -, h⟩
  · exact .inl (fault_of_languageOf hl)
  rcases bind_eq_error_iff.1 h with hf | ⟨f, -, h⟩
  · exact .inr (.inl ⟨l, fault_of_frontEndOf hf⟩)
  rcases bind_eq_error_iff.1 h with ht | ⟨t, ht, h⟩
  · obtain ⟨unread, htree, rfl⟩ := mapError_eq_error_iff.1 ht
    obtain ⟨span, rfl⟩ := Grammar.exists_span_fault htree
    exact .inr (.inr ⟨span, rfl⟩)
  rcases bind_eq_error_iff.1 h with hfound | ⟨found, -, h⟩
  · -- The walk of a tree that was read finishes.
    obtain ⟨notes, passed, -, hok, -⟩ :=
      Grammar.exists_findings? (mapError_eq_ok_iff.1 ht) s.accepts
    rw [hok] at hfound
    cases hfound
  · cases h

/-- **No scan of a text has a fault without words.** -/
theorem exists_words {fault : ScanFault}
    (h : s.scanSource (some source) path language hash = .error fault) :
    ∃ words, fault.message = some words := by
  rcases fault_of_scanSource h with rfl | ⟨l, rfl⟩ | ⟨f, rfl⟩
  · exact ⟨_, rfl⟩
  · exact ⟨_, rfl⟩
  · exact ⟨_, rfl⟩

/-- A text in no known language is refused for its path. -/
theorem scanSource_unsupported (h : s.registry.languageFor? path = none) :
    s.scanSource (some source) path none hash = .error (.unsupportedFile path) := by
  have hl : s.languageOf path none = .error (.unsupportedFile path) := by
    have hnone : (none <|> s.registry.languageFor? path) = none := h
    rw [languageOf, hnone]
  exact bind_eq_error_iff.2 (.inl hl)

/-- What is reported of a text whose tree can be searched. -/
theorem scanSource_ok {l : Language} {frontEnd : FrontEnd} {t : Tree} {found : List Finding}
    (hl : s.registry.languageFor? path = some l) (hf : s.registry.frontEnd? l = some frontEnd)
    (ht : frontEnd.grammar.tree? source.toUTF8 (frontEnd.parse source) = .ok t)
    (hfound : t.findings? s.accepts = .ok found) {digest : String} (hdigest : digest ≠ "") :
    s.scanSource (some source) path none (some digest) =
      .ok ⟨path, some l, digest, some t, found, t.readingErrors⟩ := by
  have hlanguage : s.languageOf path none = .ok l := by
    have hsome : (none <|> s.registry.languageFor? path) = some l := hl
    rw [languageOf, hsome]
  have hfrontEnd : s.frontEndOf l = .ok frontEnd := by rw [frontEndOf, hf]
  have htree : frontEnd.tree? source = .ok t := mapError_eq_ok_iff.2 ht
  have hsearch : (t.findings? s.accepts).mapError ScanFault.search = .ok found :=
    mapError_eq_ok_iff.2 hfound
  refine bind_eq_ok_iff.2 ⟨l, hlanguage, bind_eq_ok_iff.2 ⟨frontEnd, hfrontEnd,
    bind_eq_ok_iff.2 ⟨t, htree, bind_eq_ok_iff.2 ⟨found, hsearch, ?_⟩⟩⟩⟩
  have hne : digest.isEmpty = false := by
    rw [Bool.eq_false_iff]
    exact fun h ↦ hdigest (String.isEmpty_iff.1 h)
  simp only [hne]
  rfl

end Scanner

/-- A digest is not empty. -/
theorem Sha256.hex_ne_empty (message : ByteArray) : hex message ≠ "" := by
  intro h
  have hlen := congrArg (List.length ∘ String.toList) h
  simp [hex, State.words] at hlen

/-! ### Files -/

/-- Whether a report says of a file what can be said of it, given what came of reading the file and
the language of the path that it is reported under. -/
structure FileReport.Fits (r : FileReport) (read : Except DiskFault ByteArray)
    (language : Option Language) : Prop where
  /-- Only a file that cannot be read or is in no known language has no tree. -/
  tree_eq_none_iff : r.tree = none ↔ (∃ fault, read = .error fault) ∨ language = none
  /-- Without a tree there is one reason and nothing else. -/
  blank : r.tree = none → r.findings = [] ∧ r.hash = "" ∧ ∃ reason, r.errors = [reason]
  /-- The language of a report with a tree is that of the path. -/
  language_eq : r.tree ≠ none → r.language = language
  /-- The digest of a report with a tree is that of the content of the file. -/
  hash_eq : r.tree ≠ none → ∃ content, read = .ok content ∧ r.hash = Sha256.hex content
  /-- All findings are known to the tree, and can be described. -/
  described : ∀ f ∈ r.findings, ∃ t, r.tree = some t ∧ t.Knows f ∧ ∃ d, r.describe? f = .ok d

namespace Concrete

/-- Whether a concrete tree agrees with a source: the points of its nodes are those of their
offsets, and no node ends before it starts. -/
def AgreesWith (source : ByteArray) (c : Concrete) : Prop :=
  ∀ n ∈ c.nodes, n.label.AgreesWith source ∧ n.label.startByte ≤ n.label.endByte

/-- A tree that agrees with a source can be read in each of the languages. -/
theorem AgreesWith.exists_tree? {source : ByteArray} {c : Concrete} (h : c.AgreesWith source)
    (language : Language) : ∃ t, (Grammar.ofLanguage language).tree? source c = .ok t := by
  have hclassify := Grammar.classify_ofLanguage language
  refine Grammar.exists_tree?_of_agrees hclassify (fun n hn ↦ ?_) fun n hn _ ↦ (h n hn).1
  obtain ⟨⟨hstart, hstop⟩, hle⟩ := h n hn
  rw [hstart, hstop]
  exact Utf8.delimits_pointAt source hle

end Concrete

namespace Workspace

variable {w : Workspace} {path words : String} {relative : Option String} {content : ByteArray}

/-- The scan of the content of a file. -/
abbrev scanContent (w : Workspace) (reported : String) (content : ByteArray) :
    Except ScanFault FileReport :=
  w.scanner.scanSource (some (Utf8.fileText content)) reported none (some (Sha256.hex content))

theorem scanFile?_unread {fault : DiskFault} (h : w.disk.read? path = .error fault) :
    w.scanFile? path relative = .ok (w.failure (reportedPath path relative) fault.message) := by
  rw [scanFile?, h]

theorem scanFile?_scanned {r : FileReport} (h : w.disk.read? path = .ok content)
    (hr : w.scanContent (reportedPath path relative) content = .ok r) :
    w.scanFile? path relative = .ok r := by
  simp only [scanContent] at hr
  simp only [scanFile?, h, hr]

theorem scanFile?_refused {fault : ScanFault} (h : w.disk.read? path = .ok content)
    (hr : w.scanContent (reportedPath path relative) content = .error fault)
    (hwords : fault.message = some words) :
    w.scanFile? path relative = .ok (w.failure (reportedPath path relative) words) := by
  simp only [scanContent] at hr
  simp only [scanFile?, h, hr, hwords]

/-- **Every file has a report**: no fault of a file is passed on. -/
theorem scanFile?_eq_ok (w : Workspace) (path : String) (relative : Option String) :
    w.scanFile? path relative = .ok (w.scanFile path relative) := by
  have hok : ∃ r, w.scanFile? path relative = .ok r := by
    cases hread : w.disk.read? path with
    | error fault => exact ⟨_, scanFile?_unread hread⟩
    | ok content =>
      cases hscan : w.scanContent (reportedPath path relative) content with
      | ok r => exact ⟨r, scanFile?_scanned hread hscan⟩
      | error fault =>
        obtain ⟨words, hwords⟩ := Scanner.exists_words hscan
        exact ⟨_, scanFile?_refused hread hscan hwords⟩
  obtain ⟨r, hr⟩ := hok
  rw [scanFile, hr]

/-- A report on a failure fits a file that cannot be read or is in no known language. -/
theorem fits_failure {read : Except DiskFault ByteArray} {language : Option Language}
    (reported reason : String) (h : (∃ fault, read = .error fault) ∨ language = none) :
    (w.failure reported reason).Fits read language where
  tree_eq_none_iff := iff_of_true rfl h
  blank _ := ⟨rfl, rfl, reason, rfl⟩
  language_eq h := absurd rfl h
  hash_eq h := absurd rfl h
  described _ hf := absurd hf List.not_mem_nil

section

variable {parse : Language → String → Concrete}
  (hparse : ∀ l source, (parse l source).AgreesWith source.toUTF8)
  (hregistry : w.scanner.registry = .ofAll (FrontEnd.ofLanguage parse))

include hparse hregistry

/-- **The report on a file fits the file**, if the parsers give a tree for every text that agrees
with it. -/
theorem scanFile_fits (path : String) (relative : Option String) :
    (w.scanFile path relative).Fits (w.disk.read? path)
      (w.scanner.registry.languageFor? (reportedPath path relative)) := by
  have hreport := w.scanFile?_eq_ok path relative
  generalize hr : w.scanFile path relative = r at hreport
  cases hread : w.disk.read? path with
  | error fault =>
    rw [scanFile?_unread hread] at hreport
    cases hreport
    exact fits_failure _ _ (.inl ⟨fault, rfl⟩)
  | ok content =>
    cases hlanguage : w.scanner.registry.languageFor? (reportedPath path relative) with
    | none =>
      rw [scanFile?_refused hread (Scanner.scanSource_unsupported hlanguage) rfl] at hreport
      cases hreport
      exact fits_failure _ _ (.inr rfl)
    | some l =>
      have hfrontEnd : w.scanner.registry.frontEnd? l = some (FrontEnd.ofLanguage parse l) := by
        rw [hregistry, Registry.frontEnd?_ofAll]
      obtain ⟨t, ht⟩ := (hparse l (Utf8.fileText content)).exists_tree? l
      obtain ⟨notes, passed, -, hfound, -⟩ := Grammar.exists_findings? ht w.scanner.accepts
      rw [scanFile?_scanned hread (Scanner.scanSource_ok hlanguage hfrontEnd ht hfound
        (Sha256.hex_ne_empty content))] at hreport
      cases hreport
      have hnot : ¬ ((∃ fault : DiskFault, Except.ok content = .error fault) ∨ some l = none) := by
        rintro (⟨fault, h⟩ | h) <;> cases h
      exact {
        tree_eq_none_iff := iff_of_false (Option.some_ne_none t) hnot
        blank := fun h ↦ absurd h (Option.some_ne_none t)
        language_eq := fun _ ↦ rfl
        hash_eq := fun _ ↦ ⟨content, rfl, rfl⟩
        described := fun f hf ↦ by
          have hknows := Tree.knows_of_findings? hfound hf
          obtain ⟨d, hd⟩ := hknows.exists_describe?
          exact ⟨t, rfl, hknows, d, mapError_eq_ok_iff.2 hd⟩ }

/-- **A file that fails disturbs no other file, and every report fits its file.** Let the parsers
give for every text some tree that agrees with it, and let files be scanned one or more at once.
Then every list of files has its reports, one for each file and in the order of the files, and the
report on a file is the one that it has alone. No scan of a file fails, whatever is at its path; and
its report has a tree unless the file cannot be read or is in no known language, in which case there
is one reason and nothing else. With a tree come the language, the digest of the content, and
findings that can all be described in this tree. -/
theorem scanFiles_fit (hworkers : 1 ≤ w.workers) (files : List SourceFile) :
    (∃ reports, w.scanFiles files = .ok reports ∧
      List.Forall₂ (fun file r ↦ w.scanFile? file.location.text (some file.relative) = .ok r)
        files reports) ∧
    ∀ path relative, ∃ r, w.scanFile? path relative = .ok r ∧
      r.Fits (w.disk.read? path)
        (w.scanner.registry.languageFor? (reportedPath path relative)) := by
  refine ⟨⟨files.map w.scanFound, scanFiles_eq_map w files hworkers, ?_⟩, fun path relative ↦ ?_⟩
  · rw [List.forall₂_map_right_iff, List.forall₂_same]
    intro file _
    exact w.scanFile?_eq_ok file.location.text (some file.relative)
  · exact ⟨_, w.scanFile?_eq_ok path relative, scanFile_fits hparse hregistry path relative⟩

end

end Workspace

/-! ### A workspace with failures -/

namespace Concrete

/-- The tree of a text that has a single node. -/
def whole (source : String) : Concrete :=
  ⟨⟨"compilation_unit", 0, source.utf8ByteSize, ⟨0, 0⟩,
    Utf8.pointAt source.toUTF8 source.utf8ByteSize, false, none⟩, []⟩

theorem whole_agreesWith (source : String) : (whole source).AgreesWith source.toUTF8 := by
  intro n hn
  cases List.mem_singleton.1 hn
  exact ⟨⟨rfl, rfl⟩, Nat.zero_le _⟩

/-- A tree of a source agrees with it. -/
theorem Placed.agreesWith {source : String} {c : Concrete} (h : c.Placed source) :
    c.AgreesWith source.toUTF8 :=
  fun n hn ↦ ⟨⟨(h.start n hn).eq_pointAt, (h.stop n hn).eq_pointAt⟩,
    Int.ofNat_le.1 (h.ordered n hn).1⟩

/-- A parser that knows the small file. Of every other text it gives a single node. -/
def sampleParse (_ : Language) (source : String) : Concrete :=
  if source = sampleText then sample else whole source

theorem sampleParse_agreesWith (l : Language) (source : String) :
    (sampleParse l source).AgreesWith source.toUTF8 := by
  rw [sampleParse]
  split
  · rename_i h
    rw [h]
    exact sample_placed.agreesWith
  · exact whole_agreesWith source

end Concrete

namespace Workspace

/-- A workspace with the small file, a text in no known language and a directory with the name of a
source. -/
def sample : Workspace where
  disk := ⟨[("a.cs", .file Concrete.sampleText.toUTF8), ("b.txt", .file "b".toUTF8),
    ("c.cs", .dir [])], []⟩
  scanner := ⟨.ofAll (FrontEnd.ofLanguage Concrete.sampleParse), Markers.standard.accepts⟩
  sizeLimit := 1000000
  workers := 2

/-- Sources that are named where no file, none in a known language, or nothing at all is. -/
def sampleFiles : List SourceFile :=
  [⟨"a.cs", ["a.cs"], 45⟩, ⟨"b.txt", ["b.txt"], 1⟩, ⟨"c.cs", ["c.cs"], 0⟩, ⟨"d.cs", ["d.cs"], 0⟩]

/-- What comes of reading three of them. -/
theorem read?_sample : sample.disk.read? "/a.cs" = .ok Concrete.sampleText.toUTF8 ∧
    sample.disk.read? "/c.cs" = .error ⟨.isDirectory, "/c.cs"⟩ ∧
    sample.disk.read? "/d.cs" = .error ⟨.notFound, "/d.cs"⟩ := by
  have ha : sample.disk.find? "/a.cs" = .ok (.file Concrete.sampleText.toUTF8) :=
    Disk.IsPlain.find?_location (by decide : Disk.IsPlain "a.cs") rfl (by simp)
  have hc : sample.disk.find? "/c.cs" = .ok (.dir []) :=
    Disk.IsPlain.find?_location (by decide : Disk.IsPlain "c.cs") rfl (by simp)
  have hd : sample.disk.locate true "/d.cs" = .error .notFound := by
    have hwalk : sample.disk.walk true Disk.maxLinks [] ["d.cs"] = .error .notFound := by
      rw [Disk.walk]
      rfl
    exact hwalk
  refine ⟨?_, ?_, ?_⟩
  · rw [Disk.read?, ha]
  · rw [Disk.read?, hc]
  · rw [Disk.read?, Disk.find?, hd]

/-- The small file is scanned, and the other three are reported as failures. -/
theorem scanFiles_fit_sample :
    (∀ l source, (Concrete.sampleParse l source).AgreesWith source.toUTF8) ∧ 1 ≤ sample.workers ∧
      ∃ a b c d, sample.scanFiles sampleFiles = .ok [a, b, c, d] ∧ a.tree ≠ none ∧
        b.tree = none ∧ c.tree = none ∧ d.tree = none := by
  have hparse := Concrete.sampleParse_agreesWith
  have hworkers : 1 ≤ sample.workers := by decide
  obtain ⟨⟨reports, hreports, hall⟩, hfits⟩ := scanFiles_fit hparse rfl hworkers sampleFiles
  have hfit : ∀ path relative r, sample.scanFile? path relative = .ok r → r.Fits
      (sample.disk.read? path)
      (sample.scanner.registry.languageFor? (reportedPath path relative)) := by
    intro path relative r hr
    obtain ⟨r', hr', hfit⟩ := hfits path relative
    cases hr.symm.trans hr'
    exact hfit
  obtain ⟨hreada, hreadc, hreadd⟩ := read?_sample
  match reports, hall with
  | [a, b, c, d], .cons ha (.cons hb (.cons hc (.cons hd .nil))) =>
    refine ⟨hparse, hworkers, a, b, c, d, hreports, ?_, ?_, ?_, ?_⟩
    · intro hnone
      rcases (hfit _ _ a ha).tree_eq_none_iff.1 hnone with ⟨fault, hfault⟩ | hlanguage
      · exact absurd (hreada.symm.trans hfault) (by simp)
      · revert hlanguage
        decide
    · exact (hfit _ _ b hb).tree_eq_none_iff.2 (.inr (by decide))
    · exact (hfit _ _ c hc).tree_eq_none_iff.2 (.inl ⟨_, hreadc⟩)
    · exact (hfit _ _ d hd).tree_eq_none_iff.2 (.inl ⟨_, hreadd⟩)

end Workspace

end CommentScope
