import LsxKit.Proofs.Descriptor.LineEnds
import LsxKit.Proofs.Descriptor.Sync
import LsxKit.Proofs.Tree.RoundTrip

/-!
# Saving descriptors

* `shaped_run`: edits keep the shape of the tree.
* `parse_saved`: a descriptor of that shape can be saved and read again.
* `parse_toXml`: what is read from a saved descriptor, and when it is what was saved.
-/

namespace LsxKit.Descriptor

open Json LsxKit.Tree Xml

/-! ## Edits -/

/-- An edit leaves the shape of the tree. -/
theorem shaped_set {d d' : Descriptor} {field : ModuleField} {value : String}
    (h : ShapedDocument .descriptor d.tree) (hset : d.set field value = .ok d') :
    ShapedDocument .descriptor d'.tree := by
  obtain ⟨node, q, own, hnode, hown, hfind, rfl⟩ := set_eq_ok hset
  have hmem : q ∈ attributePlaces node := List.mem_of_find?_eq_some hfind
  obtain ⟨hwithin, r, ⟨-, hhead, hgroup⟩, hpath⟩ :=
    attributePlaces_reached (reached_node? hnode) hmem
  have hat : d.tree.at? (r.path ++ [.key attributesGroup]) = some (.object own) := by
    rw [← hpath, ← hown]
    exact hwithin
  show ShapedDocument .descriptor (d.tree.replaceAt q.path _)
  rw [hpath]
  exact shapedDocument_replaceAt rfl (by decide) hgroup hhead (by decide) h hat fun hshaped =>
    attributesShaped_insert hshaped ⟨by decide, by decide⟩ value

theorem shaped_edit {d : Descriptor} (h : ShapedDocument .descriptor d.tree) (e : Edit) :
    ShapedDocument .descriptor (d.edit e).tree := by
  rcases edit_cases d e with he | ⟨field, value, hset⟩
  · rwa [he]
  · exact shaped_set h hset

/-- So does every run of edits. -/
theorem shaped_run {d : Descriptor} (h : ShapedDocument .descriptor d.tree) (edits : List Edit) :
    ShapedDocument .descriptor (d.run edits).tree := by
  induction edits generalizing d with
  | nil => exact h
  | cons e edits ih => exact ih (shaped_edit h e)

/-- Edits leave the line ends. -/
theorem crlf_run (d : Descriptor) (edits : List Edit) : (d.run edits).crlf = d.crlf := by
  induction edits generalizing d with
  | nil => rfl
  | cons e edits ih =>
    refine (ih (d.edit e)).trans ?_
    rcases edit_cases d e with he | ⟨field, value, hset⟩
    · rw [he]
    · obtain ⟨_, _, _, _, _, _, hd⟩ := set_eq_ok hset
      rw [hd]

/-! ## Saving and reading -/

theorem parse_ok {text : String} {tree : Value} (h : Tree.parse .descriptor text = .ok tree)
    (hnode : ∃ node, node? tree .moduleInfo = some node) :
    ∃ d, Descriptor.parse text = .ok d ∧ d.tree = tree := by
  obtain ⟨node, hnode⟩ := hnode
  unfold Descriptor.parse
  rw [h]
  simp only [bind, Except.bind, infoOf_eq hnode, pure, Except.pure]
  exact ⟨_, rfl, rfl⟩

/-- A text of the marks of a descriptor is read as its tree. -/
theorem tree_of_spaced {tree : Value} (h : ShapedDocument .descriptor tree) {cs : List Char}
    (hcs : Spaced (documentMarksOf .descriptor tree) cs) :
    Tree.parse .descriptor (String.ofList cs) = .ok tree := by
  rw [parse_spaced (by decide) h (by rwa [String.toList_ofList]), rereadDocument_eq rfl h]

/-- What is written for a tree, its last line ended or not. -/
def ended (written : String) (endsLine : Bool) : List Char :=
  written.toList ++ if endsLine then ['\n'] else []

theorem toXml_eq {d : Descriptor} {written : String}
    (h : Tree.write .descriptor d.tree = .ok written) :
    d.toXml = .ok (String.ofList
      (if d.crlf then toCrlf (ended written d.endsLine) else ended written d.endsLine)) := by
  rw [toXml, h]
  rfl

/-- The end of the last line is one more space. -/
theorem spaced_ended {ms : List Mark} {written : String} (h : Spaced ms written.toList)
    (endsLine : Bool) : Spaced ms (ended written endsLine) := by
  refine spaced_append h ?_
  split_ifs <;> simp [isSpace]

/-- A descriptor whose tree has the shape of one is saved without fault. What is saved is read as a
descriptor with the same tree; if lines end with a carriage return, so do those inside its texts. -/
theorem parse_saved {d : Descriptor} (h : ShapedDocument .descriptor d.tree)
    (hnode : ∃ node, node? d.tree .moduleInfo = some node) :
    ∃ saved d', d.toXml = .ok saved ∧ Descriptor.parse saved = .ok d' ∧
      d'.tree = if d.crlf then mapText withCrlf d.tree else d.tree := by
  have hgroup : Options.descriptor.group ≠ some textKey := by decide
  obtain ⟨written, hwrite, hspaced⟩ := spaced_write hgroup h
  have hended := spaced_ended hspaced d.endsLine
  rw [toXml_eq hwrite]
  cases d.crlf with
  | false =>
    obtain ⟨d', hparse, htree⟩ := parse_ok (tree_of_spaced h hended) hnode
    exact ⟨_, d', rfl, hparse, htree⟩
  | true =>
    have hmapped : ShapedDocument .descriptor (mapText withCrlf d.tree) :=
      shapedDocument_mapText rfl rfl keepsShape_withCrlf h
    have hmarks : documentMarksOf .descriptor (mapText withCrlf d.tree) =
        (documentMarksOf .descriptor d.tree).map (mapMark withCrlf) := by
      have hmap := marks_mapText rfl rfl keepsShape_withCrlf h
      rw [marks_eq h, marks_eq hmapped] at hmap
      exact Except.ok.inj hmap
    have hclean := clean_roots (writable_rootsOf hgroup h).1
    have hcrlf := spaced_toCrlf hclean hended
    rw [← documentMarksOf, ← hmarks] at hcrlf
    have hfound : ∃ node, node? (mapText withCrlf d.tree) .moduleInfo = some node := by
      obtain ⟨node, hnode⟩ := hnode
      exact ⟨node.map _, by rw [keepsNodes_withCrlf.node?, hnode, Option.map_some]⟩
    obtain ⟨d', hparse, htree⟩ := parse_ok (tree_of_spaced hmapped hcrlf) hfound
    exact ⟨_, d', rfl, hparse, htree⟩

/-- The tree of a saved descriptor is unchanged exactly if no line end was put into a text. -/
theorem same_saved_iff {d : Descriptor} (h : ShapedDocument .descriptor d.tree) :
    (if d.crlf then mapText withCrlf d.tree else d.tree).same d.tree = true ↔
      (d.crlf = true → ∀ s ∈ texts d.tree, '\n' ∉ s.toList) := by
  have hdistinct := distinct_document h
  cases d.crlf with
  | false => simpa using same_self _ hdistinct
  | true => simp only [if_true, forall_const, same_mapText_iff hdistinct, withCrlf_eq_self_iff]

/-- With ordinary names, the tree of a descriptor has the shape of one. -/
theorem shaped_descriptor {text : String} {d : Descriptor}
    (hparse : Descriptor.parse text = .ok d) (hnames : ∀ n ∈ names text, isName n = true)
    (hvalues : ∀ v ∈ declaredValues text, '"' ∉ v) : ShapedDocument .descriptor d.tree := by
  obtain ⟨htree, -, -⟩ := parse_eq_ok hparse
  refine shaped_parse (by decide) (fun n hn => ⟨hnames n hn, fun he => ?_⟩) hvalues htree
  obtain rfl : attributesGroup = n := by simpa [Options.descriptor] using he
  exact absurd (hnames _ hn) (by decide)

/-- After edits a descriptor is saved without fault, and what is saved is read as a descriptor. Its
tree is the one that was saved, but if some line of the text that was read first ends with a
carriage return and a line feed, every line feed in the tree is read with a carriage return before
it. So the tree is unchanged exactly if no line ends that way or nothing in the tree holds a line
feed. -/
theorem parse_toXml {text : String} {d : Descriptor} (hparse : Descriptor.parse text = .ok d)
    (hnames : ∀ n ∈ names text, isName n = true)
    (hvalues : ∀ v ∈ declaredValues text, '"' ∉ v) (edits : List Edit) :
    ∃ saved d', (d.run edits).toXml = .ok saved ∧ Descriptor.parse saved = .ok d' ∧
      d'.tree = (if hasCrlf text.toList then mapText withCrlf (d.run edits).tree
        else (d.run edits).tree) ∧
      (d'.tree.same (d.run edits).tree = true ↔
        (hasCrlf text.toList = true → ∀ s ∈ texts (d.run edits).tree, '\n' ∉ s.toList)) := by
  have hshaped := shaped_run (shaped_descriptor hparse hnames hvalues) edits
  have hnode := (tracks_run (tracks_parse hparse) edits).node
  have hcrlf : (d.run edits).crlf = hasCrlf text.toList :=
    (crlf_run d edits).trans (parse_eq_ok hparse).2.2
  obtain ⟨saved, d', hxml, hread, htree⟩ := parse_saved hshaped hnode
  have hsame := same_saved_iff hshaped
  rw [← htree, hcrlf] at hsame
  rw [hcrlf] at htree
  exact ⟨saved, d', hxml, hread, htree, hsame⟩

/-- A descriptor with lines that end with a carriage return, whose name is set to one line. -/
theorem parse_toXml_one_line :
    ∃ d saved d', Descriptor.parse (textWith "\r\n<attribute id=\"Name\" value=\"a\"/>") = .ok d ∧
      (d.run [.set .name "c"]).toXml = .ok saved ∧ Descriptor.parse saved = .ok d' ∧
      d'.tree.same (d.run [.set .name "c"]).tree = true := by
  have htexts :
      (Descriptor.parse (textWith "\r\n<attribute id=\"Name\" value=\"a\"/>")).toOption.map
        (fun d : Descriptor =>
          decide (∀ s ∈ texts (d.run [.set .name "c"]).tree, '\n' ∉ s.toList)) = some true := by
    decide +kernel
  obtain ⟨d, hparse, hlines⟩ := Option.map_eq_some_iff.1 htexts
  have hd := ok_of_toOption hparse
  obtain ⟨saved, d', hxml, hread, -, hsame⟩ :=
    parse_toXml hd (by decide +kernel) (by decide +kernel) [.set .name "c"]
  exact ⟨d, saved, d', hd, hxml, hread, hsame.2 fun _ => of_decide_eq_true hlines⟩

/-- A line feed inside a value is read with a carriage return before it. -/
theorem parse_toXml_two_lines :
    ¬ ∀ text d, Descriptor.parse text = .ok d → (∀ n ∈ names text, isName n = true) →
      (∀ v ∈ declaredValues text, '"' ∉ v) → ∀ edits, ∃ saved d',
        (d.run edits).toXml = .ok saved ∧ Descriptor.parse saved = .ok d' ∧
          d'.tree.same (d.run edits).tree = true := by
  intro hall
  have htexts : (Descriptor.parse
      (textWith "\r\n<attribute id=\"Name\" value=\"a\nb\"/>")).toOption.map
        (fun d : Descriptor => (d.crlf, decide (∀ s ∈ texts d.tree, '\n' ∉ s.toList))) =
      some (true, false) := by decide +kernel
  obtain ⟨d, hparse, hd⟩ := Option.map_eq_some_iff.1 htexts
  obtain ⟨hcrlf, hlines⟩ := Prod.mk.inj hd
  have hd := ok_of_toOption hparse
  have hnames : ∀ n ∈ names (textWith "\r\n<attribute id=\"Name\" value=\"a\nb\"/>"),
      isName n = true := by decide +kernel
  have hvalues : ∀ v ∈ declaredValues (textWith "\r\n<attribute id=\"Name\" value=\"a\nb\"/>"),
      '"' ∉ v := by decide +kernel
  have hshaped := shaped_descriptor hd hnames hvalues
  obtain ⟨saved, d', hxml, hread, htree⟩ := parse_saved hshaped (tracks_parse hd).node
  obtain ⟨saved', d'', hxml', hread', hsame⟩ := hall _ d hd hnames hvalues []
  -- There is one way to save and to read.
  obtain rfl : saved = saved' := Except.ok.inj (hxml.symm.trans hxml')
  obtain rfl : d' = d'' := Except.ok.inj (hread.symm.trans hread')
  have hunchanged : d'.tree.same d.tree = true := hsame
  rw [htree, same_saved_iff hshaped] at hunchanged
  exact absurd (hunchanged hcrlf) (of_decide_eq_false hlines)

end LsxKit.Descriptor
