/-!
# Shapes of document trees

A document tree is a JSON value. The options say under which key the attributes of an element
stand, whether values become numbers and booleans, and which elements are always in arrays.

* `attributesGroup`, `textKey`, `declarationKey`: the keys that are not element names.
* `Options`: the shape of a tree; `Options.descriptor` is that of the descriptors of mods.
-/

namespace LsxKit.Tree

/-- The usual key of the attributes of an element. -/
def attributesGroup : String := "_@_"

/-- The key of the text of an element that has attributes or children. -/
def textKey : String := "#text"

/-- The key of the XML declaration. -/
def declarationKey : String := "?xml"

/-- The shape of a document tree. -/
structure Options where
  /-- The key of the attributes of an element. Without one they stand among its children. -/
  group : Option String
  /-- Whether values that look like numbers or booleans become such. -/
  convert : Bool
  /-- Whether the XML declaration is left out. -/
  ignoreDeclaration : Bool
  /-- Whether elements of a tag at a dotted path are in an array even when there is only one. -/
  alwaysArray : String → String → Bool

/-- Attributes in their group, values converted, declaration kept, no forced arrays. -/
def Options.standard : Options where
  group := some attributesGroup
  convert := true
  ignoreDeclaration := false
  alwaysArray := fun _ _ => false

/-- The trees of descriptors, with values kept as text: single nodes of a list of children and
single attributes of a node are in arrays too. -/
def Options.descriptor : Options where
  group := some attributesGroup
  convert := false
  ignoreDeclaration := false
  alwaysArray := fun _ path =>
    "children.node".toList.isSuffixOf path.toList || "node.attribute".toList.isSuffixOf path.toList

instance : Inhabited Options := ⟨Options.standard⟩

end LsxKit.Tree
