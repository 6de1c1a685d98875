import LsxKit.Text.Position
import LsxKit.Xml.Fault

/-!
# Markup tokens

A document is cut into runs of text and pieces of markup. Text runs up to the next `<`; what
follows the `<` decides how the markup ends.

* `step`: the first token of a text, or why there is none.
* `step_length`: what is left after a token is shorter.
* `step_source`: the token's characters and what is left are the text.
-/

namespace LsxKit.Xml

/-- The four characters that count as space in markup. -/
def isSpace (c : Char) : Bool := c == ' ' || c == '\t' || c == '\n' || c == '\r'

/-- A run of text or a piece of markup. -/
inductive Token where
  | text (raw : List Char)
  /-- A start tag or the tag of an empty element: what stands between the brackets. -/
  | tag (content : List Char)
  /-- An end tag: what follows the slash. -/
  | close (content : List Char)
  /-- What stands between `<?` and `?>`. -/
  | instruction (content : List Char)
  | comment (content : List Char)
  | characterData (content : List Char)
  | doctype (content : List Char)
  deriving Repr, DecidableEq

/-- The first token of a text. -/
inductive Step where
  | done
  | failed (fault : Fault)
  /-- A token, its characters, and what is left. -/
  | token (t : Token) (source rest : List Char)
  deriving Repr

/-! ## Where markup ends -/

/-- Splits the text after a `<` at the first `>` outside quotes; `quote` is the open quote. -/
def splitTag : Option Char → List Char → List Char × List Char
  | _, [] => ([], [])
  | none, c :: cs =>
    if c = '>' then ([], c :: cs)
    else
      let (content, rest) := splitTag (if c = '"' ∨ c = '\'' then some c else none) cs
      (c :: content, rest)
  | some q, c :: cs =>
    let (content, rest) := splitTag (if c = q then none else some q) cs
    (c :: content, rest)

/-- Splits a text at the first `>` at which the characters before it, latest first, are a
complete piece of markup. -/
def splitWhen? (complete : List Char → Bool) :
    List Char → List Char → Option (List Char × List Char)
  | _, [] => none
  | read, c :: cs =>
    if c = '>' ∧ complete read then some (read.reverse, c :: cs)
    else splitWhen? complete (c :: read) cs

/-- A comment is complete after two hyphens that are not those of its beginning. -/
def commentComplete : List Char → Bool
  | '-' :: '-' :: _ :: _ :: _ => true
  | _ => false

/-- Character data is complete after two closing brackets. -/
def characterDataComplete : List Char → Bool
  | ']' :: ']' :: _ => true
  | _ => false

/-- Splits a text at the first `>` before which every `<` has its `>`; `depth` are those that still
miss it. -/
def splitBalanced? (depth : Nat) : List Char → Option (List Char × List Char)
  | [] => none
  | c :: cs =>
    if c = '>' ∧ depth = 0 then some ([], c :: cs)
    else
      let depth := if c = '<' then depth + 1 else if c = '>' then depth - 1 else depth
      (splitBalanced? depth cs).map fun (content, rest) => (c :: content, rest)

/-- `s` without the word `w` at its beginning, whatever the case of its letters. -/
def dropWord? (w s : List Char) : Option (List Char) :=
  if (s.take w.length).map Char.toLower = w.map Char.toLower then some (s.drop w.length) else none

/-- The first byte of a character, as the character with that code. -/
def leadByte (c : Char) : Char :=
  let n := c.toNat
  if n < 0x80 then c
  else if n < 0x800 then Char.ofNat (0xC0 + n / 0x40)
  else if n < 0x10000 then Char.ofNat (0xE0 + n / 0x1000)
  else Char.ofNat (0xF0 + n / 0x40000)

/-! ## Tokens -/

/-- A token of markup: `head` is what was read before `content`, and `rest` begins with the
closing bracket unless the text ended. -/
def Step.markup (t : Token) (head content rest : List Char) : Step :=
  .token t ('<' :: head ++ content ++ rest.take 1) (rest.drop 1)

/-- The markup after `<!`. -/
def bang (cs : List Char) : Step :=
  match cs with
  | [] => .failed (.unfinished .markup)
  | '-' :: _ =>
    match splitWhen? commentComplete [] cs with
    | some (content, rest) =>
      match dropWord? ['-', '-'] content with
      | some body => .markup (.comment (body.take (body.length - 2))) ['!'] content rest
      | none => .failed (.unfinished .comment)
    | none => .failed (.unfinished .comment)
  | '[' :: _ =>
    match splitWhen? characterDataComplete [] cs with
    | some (content, rest) =>
      match dropWord? ['[', 'C', 'D', 'A', 'T', 'A', '['] content with
      | some body => .markup (.characterData (body.take (body.length - 2))) ['!'] content rest
      | none => .failed (.unfinished .characterData)
    | none => .failed (.unfinished .characterData)
  | c :: _ =>
    if c = 'D' ∨ c = 'd' then
      match splitBalanced? 0 cs with
      | some (content, rest) =>
        match dropWord? ['D', 'O', 'C', 'T', 'Y', 'P', 'E'] content with
        | some body =>
          if body.all isSpace then .failed .emptyDoctype
          else .markup (.doctype body) ['!'] content rest
        | none => .failed (.unfinished .doctype)
      | none => .failed (.unfinished .doctype)
    else .failed (.unknownMarkup (leadByte c))

/-- The end tag with the given content. -/
def close (content rest : List Char) : Step :=
  .markup (.close content) ['/'] content rest

/-- The instruction or declaration with the given content, whose last character is a question
mark. -/
def instruction (content rest : List Char) : Step :=
  if 2 ≤ content.length ∧ content.getLast? = some '?' then
    .markup (.instruction content.dropLast) ['?'] content rest
  else .failed (.unfinished .declaration)

/-- The first token of a text. A `<` at the very end is not one. -/
def step : List Char → Step
  | [] => .done
  | '<' :: [] => .done
  | '<' :: '!' :: cs => bang cs
  | '<' :: '/' :: cs => close (cs.takeWhile (· ≠ '>')) (cs.dropWhile (· ≠ '>'))
  | '<' :: '?' :: cs => instruction (cs.takeWhile (· ≠ '>')) (cs.dropWhile (· ≠ '>'))
  | '<' :: cs => .markup (.tag (splitTag none cs).1) [] (splitTag none cs).1 (splitTag none cs).2
  | c :: cs =>
    .token (.text ((c :: cs).takeWhile (· ≠ '<'))) ((c :: cs).takeWhile (· ≠ '<'))
      ((c :: cs).dropWhile (· ≠ '<'))

/-! ## Nothing is lost -/

theorem splitTag_append (q : Option Char) (cs : List Char) :
    (splitTag q cs).1 ++ (splitTag q cs).2 = cs := by
  fun_induction splitTag q cs <;> simp_all

theorem splitWhen?_append {complete : List Char → Bool} {read cs content rest : List Char}
    (h : splitWhen? complete read cs = some (content, rest)) :
    content ++ rest = read.reverse ++ cs := by
  fun_induction splitWhen? complete read cs <;> simp_all

theorem splitBalanced?_append {depth : Nat} {cs content rest : List Char}
    (h : splitBalanced? depth cs = some (content, rest)) : content ++ rest = cs := by
  induction cs generalizing depth content with
  | nil => simp [splitBalanced?] at h
  | cons c cs ih =>
    unfold splitBalanced? at h
    split at h
    · simp_all
    · obtain ⟨⟨content', rest'⟩, hs, hc⟩ := Option.map_eq_some_iff.1 h
      simp only [Prod.mk.injEq] at hc
      obtain ⟨rfl, rfl⟩ := hc
      simp [ih hs]

theorem markup_source {t t' : Token} {head content rest source left : List Char}
    (h : Step.markup t head content rest = .token t' source left) :
    source ++ left = '<' :: (head ++ (content ++ rest)) ∧ source ≠ [] := by
  simp only [Step.markup, Step.token.injEq] at h
  obtain ⟨-, rfl, rfl⟩ := h
  simp [← List.append_assoc]
  cases rest <;> simp

theorem bang_source {cs : List Char} {t : Token} {source rest : List Char}
    (h : bang cs = .token t source rest) : source ++ rest = '<' :: '!' :: cs ∧ source ≠ [] := by
  unfold bang at h
  repeat' split at h
  all_goals first
    | contradiction
    | (next hs _ _ _ => have := splitWhen?_append hs; have := markup_source h; simp_all)
    | (next hs _ _ _ _ => have := splitBalanced?_append hs; have := markup_source h; simp_all)

theorem instruction_source {t : Token} {content left source rest : List Char}
    (h : instruction content left = .token t source rest) :
    source ++ rest = '<' :: '?' :: (content ++ left) ∧ source ≠ [] := by
  unfold instruction at h
  split at h
  · exact markup_source h
  · contradiction

theorem step_source_and_ne {cs : List Char} {t : Token} {source rest : List Char}
    (h : step cs = .token t source rest) : source ++ rest = cs ∧ source ≠ [] := by
  unfold step at h
  split at h
  · contradiction
  · contradiction
  · exact bang_source h
  · simpa using markup_source h
  · simpa using instruction_source h
  · simpa [splitTag_append] using markup_source h
  · next c cs _ _ _ _ hc =>
    simp only [Step.token.injEq] at h
    obtain ⟨-, rfl, rfl⟩ := h
    exact ⟨List.takeWhile_append_dropWhile, by
      rw [List.takeWhile_cons_of_pos (by simpa using hc)]
      exact List.cons_ne_nil _ _⟩

/-- The characters of the first token and what is left of the text are the text. -/
theorem step_source {cs : List Char} {t : Token} {source rest : List Char}
    (h : step cs = .token t source rest) : source ++ rest = cs :=
  (step_source_and_ne h).1

/-- What is left after a token is shorter than the text. -/
theorem step_length {cs : List Char} {t : Token} {source rest : List Char}
    (h : step cs = .token t source rest) : rest.length < cs.length := by
  have hs := congrArg List.length (step_source h)
  have hn := List.length_pos_iff.2 (step_source_and_ne h).2
  simp only [List.length_append] at hs
  omega

end LsxKit.Xml
