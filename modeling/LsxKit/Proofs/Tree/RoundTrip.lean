import LsxKit.Proofs.Outcome
import LsxKit.Proofs.Tree.Reread
import LsxKit.Proofs.Xml.Reading

/-!
# Writing a tree and reading it back

* `spaced_write`: what is written for the tree of a document is a text of its marks.
* `parse_spaced`: such a text is read as the tree, in the order in which it is read.
* `parse_write_parse`: a tree that was read from a text is written and read back as it was.
-/

namespace LsxKit.Tree

open Json Xml

variable {o : Options}

/-- The marks of a document. -/
def documentMarksOf (o : Options) (tree : Value) : List Mark :=
  (rootsOf o tree).flatMap Root.marks

/-- The tree of a document can be written, as a text of its marks. -/
theorem spaced_write (hgroup : o.group ≠ some textKey) {tree : Value}
    (h : ShapedDocument o tree) :
    ∃ text, write o tree = .ok text ∧ Spaced (documentMarksOf o tree) text.toList := by
  have hmarks := marks_eq h
  have hclean := clean_roots (writable_rootsOf hgroup h).1
  refine ⟨_, by rw [write, hmarks], ?_⟩
  rw [String.toList_ofList]
  exact spaced_layout hclean 0 false

/-- A text of the marks of a tree is read as the tree. -/
theorem parse_spaced (hgroup : o.group ≠ some textKey) {tree : Value}
    (h : ShapedDocument o tree) {text : String}
    (htext : Spaced (documentMarksOf o tree) text.toList) :
    parse o text = .ok (rereadDocument o tree) := by
  obtain ⟨hwritable, hkeep⟩ := writable_rootsOf hgroup h
  have hkeep' : (!o.ignoreDeclaration) = true ∨ ∀ r ∈ rootsOf o tree, ∃ e, r = .element e := by
    simpa using hkeep
  rw [parse, read_spaced hwritable hkeep' htext, Except.map, ofDocument_rootsOf hgroup h]

/-- A tree that was read from a text is written without fault, and what is written is read as an
equal tree. -/
theorem parse_write_parse (hgroup : o.group ≠ some textKey) {text : String} {tree : Value}
    (hparse : parse o text = .ok tree)
    (hnames : ∀ n ∈ names text, isName n = true ∧ o.group ≠ some n)
    (hvalues : ∀ v ∈ declaredValues text, '"' ∉ v) :
    ∃ written tree', write o tree = .ok written ∧ parse o written = .ok tree' ∧
      tree'.same tree = true := by
  have hshaped := shaped_parse hgroup hnames hvalues hparse
  obtain ⟨written, hwrite, hspaced⟩ := spaced_write hgroup hshaped
  exact ⟨written, rereadDocument o tree, hwrite, parse_spaced hgroup hshaped hspaced,
    same_rereadDocument hshaped⟩

/-- An element with an attribute, children of one tag and text among them. -/
theorem parse_write_parse_mixed :
    ∃ tree written tree', parse .standard "<a b=\"1\"><c/><c>x &lt; y</c> 12 </a>" = .ok tree ∧
      write .standard tree = .ok written ∧ parse .standard written = .ok tree' ∧
      tree'.same tree = true := by
  have hread : (parse .standard "<a b=\"1\"><c/><c>x &lt; y</c> 12 </a>").toOption.isSome =
      true := by decide +kernel
  obtain ⟨tree, hparse⟩ := Option.isSome_iff_exists.1 hread
  have hparse := ok_of_toOption hparse
  obtain ⟨written, tree', hround⟩ :=
    parse_write_parse (by decide) hparse (by decide +kernel) (by decide +kernel)
  exact ⟨tree, written, tree', hparse, hround⟩

end LsxKit.Tree
