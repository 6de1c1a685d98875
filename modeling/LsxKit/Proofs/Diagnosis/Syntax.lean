import LsxKit.Diagnosis.Engine
import LsxKit.Proofs.Xml.Readable

/-!
# Problems of well-formed documents

* `code_ne_syntaxCode_of_readable`, `problems_of_not_readable`: a well-formed document has the
  problem of one that cannot be read exactly if an event cannot be read.
* `wellFormed_readable_iff`: it has a tree exactly if there is no such event.
-/

namespace LsxKit

open Json Xml

/-- No kind of violation is the code of documents that cannot be read. -/
theorem Schema.Breach.kind_ne_syntaxCode (breach : Schema.Breach) :
    breach.kind ≠ Engine.syntaxCode := by
  cases breach <;> simp [kind, Engine.syntaxCode]

/-- A well-formed document has a tree exactly if all its events can be read. -/
theorem Tree.exists_parse_iff {text : String} (h : checkWellFormed text = .ok ())
    (o : Tree.Options) :
    (∃ tree, Tree.parse o text = .ok tree) ↔ AllReadable (!o.ignoreDeclaration) text := by
  rw [← exists_read_iff h]
  unfold Tree.parse
  cases Document.read (!o.ignoreDeclaration) text <;> simp [Except.map]

namespace Engine

variable {e : Engine} {d : TextDocument}

theorem tree_eq_parse (h : checkWellFormed d.text = .ok ()) :
    e.tree d = Tree.parse e.options d.text := by
  rw [Engine.tree, h]
  rfl

/-- A well-formed document that can be read has problems with its schema only. -/
theorem code_ne_syntaxCode_of_readable (h : checkWellFormed d.text = .ok ())
    (hreadable : AllReadable (!e.options.ignoreDeclaration) d.text) {p : Problem}
    (hp : p ∈ e.problems d) : p.code ≠ some syntaxCode := by
  obtain ⟨tree, htree⟩ := (Tree.exists_parse_iff h e.options).2 hreadable
  rw [Engine.problems, tree_eq_parse h, htree] at hp
  obtain ⟨violation, -, rfl⟩ := List.mem_map.1 hp
  simpa [violationProblem] using violation.breach.kind_ne_syntaxCode

/-- A well-formed document that cannot be read has one problem, at its beginning. -/
theorem problems_of_not_readable (h : checkWellFormed d.text = .ok ())
    (hreadable : ¬ AllReadable (!e.options.ignoreDeclaration) d.text) :
    ∃ p, e.problems d = [p] ∧ p.code = some syntaxCode ∧ p.range.start = ⟨0, 0⟩ := by
  have hnone := mt (Tree.exists_parse_iff h e.options).1 hreadable
  rw [Engine.problems, tree_eq_parse h]
  cases hparse : Tree.parse e.options d.text with
  | ok tree => exact absurd ⟨tree, hparse⟩ hnone
  | error error =>
    refine ⟨e.syntaxProblem d error, rfl, rfl, ?_⟩
    have hread : Document.read (!e.options.ignoreDeclaration) d.text = .error error := by
      unfold Tree.parse at hparse
      cases hdocument : Document.read (!e.options.ignoreDeclaration) d.text with
      | ok document => simp [hdocument, Except.map] at hparse
      | error error' => simpa [hdocument, Except.map] using hparse
    have hplace : ∀ position fault, error ≠ .document position fault := by
      rintro position fault rfl
      exact unplaced_read h position fault hread
    cases error with
    | document position fault => exact absurd rfl (hplace position fault)
    | _ => rfl

end Engine

/-- A well-formed document has a tree, whatever the options, exactly if its attribute values
resolve and its declarations, unless they are left out, can be read. If so, no engine reports that
it cannot be read; otherwise every engine reports nothing else, at the beginning of the document. -/
theorem wellFormed_readable_iff {d : TextDocument} (h : checkWellFormed d.text = .ok ()) :
    (∀ o : Tree.Options, (∃ tree, Tree.parse o d.text = .ok tree) ↔
      AllReadable (!o.ignoreDeclaration) d.text) ∧
    ∀ e : Engine,
      (AllReadable (!e.options.ignoreDeclaration) d.text →
        ∀ p ∈ e.problems d, p.code ≠ some Engine.syntaxCode) ∧
      (¬ AllReadable (!e.options.ignoreDeclaration) d.text →
        ∃ p, e.problems d = [p] ∧ p.code = some Engine.syntaxCode ∧ p.range.start = ⟨0, 0⟩) :=
  ⟨Tree.exists_parse_iff h, fun _ =>
    ⟨fun hreadable _ => Engine.code_ne_syntaxCode_of_readable h hreadable,
      Engine.problems_of_not_readable h⟩⟩

/-- A value with a named entity is read with every option. -/
theorem wellFormed_readable_entity :
    checkWellFormed "<a x=\"&lt;\"/>" = .ok () ∧
      ∀ o, ∃ tree, Tree.parse o "<a x=\"&lt;\"/>" = .ok tree := by
  have hcheck : checkWellFormed "<a x=\"&lt;\"/>" = .ok () := by decide +kernel
  have hevents : (Event.reading "<a x=\"&lt;\"/>".toList).events =
      [(0, .empty ⟨['a'], " x=\"&lt;\"".toList⟩)] := by decide +kernel
  have hattributes : (Tag.attributes ⟨['a'], " x=\"&lt;\"".toList⟩).1 =
      [⟨['x'], "&lt;".toList⟩] := by decide +kernel
  have hvalue : Resolves "&lt;".toList := ⟨['<'], by decide +kernel⟩
  refine ⟨hcheck, fun o => ((wellFormed_readable_iff (d := ⟨"", "xml", 1, "<a x=\"&lt;\"/>"⟩)
    hcheck).1 o).2 ?_⟩
  unfold AllReadable
  rw [hevents, List.forall_mem_singleton, Readable, Tag.Readable, hattributes,
    List.forall_mem_singleton]
  exact hvalue

/-- A value with an entity that has no meaning passes the check, and cannot be read. -/
theorem wellFormed_readable_unknown :
    ¬ ∀ text, checkWellFormed text = .ok () → ∀ o, ∃ tree, Tree.parse o text = .ok tree := by
  intro hall
  obtain ⟨tree, htree⟩ := hall "<a x=\"&foo;\"/>" (by decide +kernel) .standard
  have hnone : (Document.read true "<a x=\"&foo;\"/>").toOption.isNone = true := by
    decide +kernel
  cases hread : Document.read true "<a x=\"&foo;\"/>" with
  | ok d => simp [hread, Except.toOption] at hnone
  | error error => simp [Tree.parse, Tree.Options.standard, hread, Except.map] at htree

end LsxKit
