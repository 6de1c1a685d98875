import LsxKit.Proofs.Localization.Loading
import LsxKit.Proofs.Path
import LsxKit.Proofs.Text.Lowercase
import LsxKit.Workspace

/-!
# Localization files

The files in which texts are looked up are chosen by their paths, and the engine of localization
documents by the language, the file name and the path of a document. For paths that do not end in a
slash both are the same files.

* `applies_localization`: the documents that the engine is for.
* `hasComponent_path`: the scheme of a URI hides no folder.
* `suffix_fileName_iff`: the file name of a document ends as its URI.
* `localization_applies_iff`: the files of the engine are the localization files.
-/

namespace LsxKit

open LsxKit.Path

namespace TextDocument

variable {d : TextDocument} {w : List Char} {p : String}

/-- The parts of a URI with a scheme are those of its path after two more. -/
theorem parts_scheme (rest : List Char) :
    ("file://".toList ++ rest).splitOn '/' = "file:".toList :: [] :: rest.splitOn '/' := by
  have hscheme : "file://".toList ++ rest = "file:".toList ++ '/' :: ([] ++ '/' :: rest) := rfl
  rw [hscheme, List.splitOn_append_cons_self_of_not_mem (by decide),
    List.splitOn_append_cons_self_of_not_mem List.not_mem_nil]

/-- The path of a document has the names of its URI, but for the scheme. -/
theorem hasComponent_path {name : String} (hname : IsName name.toList)
    (hscheme : name ≠ "file:") : hasComponent d.path name = hasComponent d.uri name := by
  rw [Bool.eq_iff_iff, hasComponent_iff hname, hasComponent_iff hname, path]
  split
  · next hfile =>
    obtain ⟨rest, hrest⟩ := List.isPrefixOf_iff_prefix.1 hfile
    have hne : name.toList ≠ "file:".toList := fun h => hscheme (String.toList_inj.1 h)
    have huri : parts d.uri = "file:".toList :: [] :: rest.splitOn '/' := by
      rw [parts, ← hrest, parts_scheme]
    rw [huri, parts, String.toList_ofList, ← hrest, List.drop_left, List.mem_cons, List.mem_cons,
      or_iff_right hne, or_iff_right hname.1]
  · rfl

/-- The file name of a document ends with a word without slashes if its URI does. -/
theorem suffix_fileName_iff (hw : ∀ c ∈ w, c ≠ '/' ∧ c ≠ '\\') :
    w <:+ d.fileName.toList ↔ w <:+ d.uri.toList := by
  rw [fileName, String.toList_ofList]
  constructor
  · intro h
    refine h.trans (List.reverse_prefix.1 ?_)
    rw [List.reverse_reverse]
    exact List.takeWhile_prefix _
  · rintro ⟨rest, hrest⟩
    rw [← hrest, List.reverse_append, List.takeWhile_append_of_pos]
    · simp
    · intro c hc
      simpa using hw c (List.mem_reverse.1 hc)

/-- Markup has one of two extensions. -/
theorem languageOf_eq_xml_iff :
    languageOf p = "xml" ↔ ∃ extension, extension? p = some extension ∧
      (Text.lower extension = "xml" ∨ Text.lower extension = "lsx") := by
  have hxml : ∀ s, Text.lowercase s = "xml" ↔ Text.lower s = "xml" :=
    fun s => Text.lowercase_eq_iff (Text.plain_of_all (by decide))
  have hlsx : ∀ s, Text.lowercase s = "lsx" ↔ Text.lower s = "lsx" :=
    fun s => Text.lowercase_eq_iff (Text.plain_of_all (by decide))
  simp only [← hxml, ← hlsx]
  unfold languageOf
  cases extension? p with
  | none => simp
  | some extension =>
    simp only [Option.map_some, Option.some.injEq, exists_eq_left']
    split
    · next h => simp [Option.some.inj h]
    · next h => simp [Option.some.inj h]
    all_goals simp_all

end TextDocument

namespace Path

variable {p extension : String}

/-- The characters of a word that is in lower case one of small letters are no slashes. -/
theorem ne_slash_of_lower {w : List Char} (h : w.map Char.toLower = ".xml".toList) :
    ∀ c ∈ w, c ≠ '/' ∧ c ≠ '\\' := by
  intro c hc
  have hmem : c.toLower ∈ ".xml".toList := h ▸ List.mem_map_of_mem hc
  constructor
  · rintro rfl
    exact absurd hmem (by decide)
  · rintro rfl
    exact absurd hmem (by decide)

theorem map_toLower_of_lower {word : String} (h : Text.lower extension = word) :
    ('.' :: extension.toList).map Char.toLower = '.' :: word.toList := by
  rw [← h, Text.lower, String.toList_ofList]
  rfl

/-- A path with an extension is in a folder if this is the name of one of its components: its file
name has a dot. -/
theorem hasComponent_parent {folder : String} (hdot : '.' ∉ folder.toList)
    (h : extension? p = some extension) (hend : ¬ EndsInSlash p) :
    (parent? p).any (hasComponent · folder) = hasComponent p folder := by
  obtain ⟨name, hname, hext, -⟩ := suffix_of_extension h hend
  obtain ⟨q, hparent, hcomponents⟩ := parent_of_fileName hname
  have hne : folder.toList ≠ name.toList := by
    intro he
    exact hdot (he ▸ hext.subset List.mem_cons_self)
  rw [hparent, Option.any_some, hasComponent, hasComponent, hcomponents, Bool.eq_iff_iff,
    List.contains_iff_mem, List.contains_iff_mem, List.mem_append, List.mem_singleton,
    or_iff_left fun he => hne (Component.normal.inj he)]

end Path

namespace Engine

variable {e : Engine} {d : TextDocument} {p : String}

/-- The engine of localization documents is for markup in files with the extension `xml` that have
the folder in their path. -/
theorem applies_localization (he : Engine.localization = .ok e) :
    e.applies d = (d.language = "xml" && ".xml".toList.isSuffixOf (Text.lowercase d.fileName).toList
      && hasComponent d.path "Localization") := by
  obtain ⟨validator, -, h⟩ := bind_eq_ok_iff.1 he
  obtain rfl := Except.ok.inj h
  rfl

/-- The file name of a document ends with the extension `xml` if its URI does. -/
theorem suffix_lowercase_fileName :
    ".xml".toList <:+ (Text.lowercase d.fileName).toList ↔
      ∃ w, w <:+ d.uri.toList ∧ ".xml".toList = w.map Char.toLower := by
  rw [Text.suffix_lowercase_iff (Text.plain_of_all (by decide)), Text.lower,
    String.toList_ofList (l := List.map _ _), List.suffix_map_iff]
  refine exists_congr fun w => and_congr_left fun hw => ?_
  exact TextDocument.suffix_fileName_iff (ne_slash_of_lower hw.symm)

/-- Files with the extension `xml` are those of markup of which the name ends so. -/
theorem extension_iff (hend : ¬ EndsInSlash d.uri) :
    (∃ extension, extension? d.uri = some extension ∧ Text.lower extension = "xml") ↔
      TextDocument.languageOf d.uri = "xml" ∧
        ".xml".toList <:+ (Text.lowercase d.fileName).toList := by
  rw [suffix_lowercase_fileName, TextDocument.languageOf_eq_xml_iff]
  constructor
  · rintro ⟨extension, hext, hlower⟩
    obtain ⟨name, -, hname, hp⟩ := suffix_of_extension hext hend
    exact ⟨⟨extension, hext, .inl hlower⟩, _, hname.trans hp, (map_toLower_of_lower hlower).symm⟩
  · rintro ⟨⟨extension, hext, hlower⟩, w, hw, hxml⟩
    refine ⟨extension, hext, hlower.resolve_right fun hlsx => ?_⟩
    -- two words of one length at the end of one path are the same
    obtain ⟨name, -, hname, hp⟩ := suffix_of_extension hext hend
    have hmap := map_toLower_of_lower hlsx
    have hlength : w.length = ('.' :: extension.toList).length := by
      have hfour := congrArg List.length hxml
      have hfour' := congrArg List.length hmap
      rw [List.length_map] at hfour hfour'
      exact hfour.symm.trans hfour'.symm
    obtain rfl : w = '.' :: extension.toList :=
      (List.suffix_of_suffix_length_le hw (hname.trans hp) hlength.le).eq_of_length hlength
    rw [← hxml] at hmap
    contradiction

/-- The engine is for the localization files, if the language of a document is that of its path. -/
theorem applies_iff (he : Engine.localization = .ok e) (hend : ¬ EndsInSlash d.uri)
    (hlanguage : d.language = TextDocument.languageOf d.uri) :
    isLocalizationXml d.uri = true ↔ e.applies d = true := by
  have hfolder : hasComponent d.path "Localization" = hasComponent d.uri "Localization" :=
    TextDocument.hasComponent_path ⟨by decide, by decide, by decide⟩ (by decide)
  have hfile : isLocalizationXml d.uri = true ↔
      (∃ extension, extension? d.uri = some extension ∧ Text.lower extension = "xml") ∧
        hasComponent d.uri "Localization" = true := by
    have hdot : '.' ∉ "Localization".toList := by decide
    rw [isLocalizationXml, Bool.and_eq_true]
    cases hext : extension? d.uri with
    | none => simp
    | some extension => simp [hasComponent_parent hdot hext hend]
  rw [hfile, extension_iff hend, applies_localization he, hfolder, hlanguage, Bool.and_eq_true,
    Bool.and_eq_true, decide_eq_true_eq, List.isSuffixOf_iff_suffix]

/-- The files in which texts are looked up are those that the engine of localization documents is
for, as long as their paths do not end in a slash: of all documents with such a path and the
language that follows from it, and of all files of a workspace. -/
theorem localization_applies_iff :
    ∃ e, Engine.localization = .ok e ∧ ∀ p, ¬ EndsInSlash p →
      (∀ version text, isLocalizationXml p = true ↔
        e.applies ⟨p, TextDocument.languageOf p, version, text⟩ = true) ∧
      ∀ (α : Type) (root : String) (tree : Option (FileTree α)) (text : String),
        p ∈ Workspace.localizations root tree ↔
          p ∈ Workspace.files root tree ∧ e.applies (.ofFile p text) = true := by
  obtain ⟨e, he⟩ := LocalizationTable.exists_localization
  refine ⟨e, he, fun p hend => ⟨fun version text => ?_, fun α root tree text => ?_⟩⟩
  · exact applies_iff (d := ⟨p, _, version, text⟩) he hend rfl
  · rw [Workspace.localizations, List.mem_mergeSort, List.mem_filter]
    exact and_congr_right fun _ => applies_iff (d := .ofFile p text) he hend rfl

/-- Case and backslashes before the extension do not matter. -/
theorem localization_applies_backslash :
    ∃ e, Engine.localization = .ok e ∧ ¬ EndsInSlash "file:///a/../Localization/./b\\.XmL" ∧
      isLocalizationXml "file:///a/../Localization/./b\\.XmL" = true ∧
      e.applies ⟨"file:///a/../Localization/./b\\.XmL", "xml", 1, ""⟩ = true := by
  obtain ⟨e, he, hall⟩ := localization_applies_iff
  have hend : ¬ EndsInSlash "file:///a/../Localization/./b\\.XmL" := by decide
  have hlanguage : TextDocument.languageOf "file:///a/../Localization/./b\\.XmL" = "xml" := by
    decide +kernel
  have hfile : isLocalizationXml "file:///a/../Localization/./b\\.XmL" = true := by
    decide +kernel
  have happlies := ((hall _ hend).1 1 "").1 hfile
  rw [hlanguage] at happlies
  exact ⟨e, he, hend, hfile, happlies⟩

end Engine

end LsxKit
