import CodeSpan.Dialect.Basic

/-!
# The dialects in stock

Braces serve the languages that write blocks between braces and comments after two slashes.
Keywords serve the languages in which `def`, `do`, `class` and their like open blocks and
`end` closes them; there a start line without an opener counts as lying inside a block, and a
block between braces is followed when the start line opens it first.
-/

namespace CodeSpan.Dialect

def openBrace : OpenerRule :=
  ⟨.literal "\\\x7b".toList, none⟩

def braceBlocks : BlockRules :=
  ⟨[openBrace], .literal "\\\x7d".toList⟩

def brace : Dialect where
  name := "brace".toList
  comments := ⟨"//".toList, "/*".toList, "*/".toList, true⟩
  blocks := braceBlocks
  inlineBlocks := none
  implicitOpen := false
  fallback := .window 5
  definitionKeywords := ["fn", "func", "function", "def", "class", "struct", "enum", "interface",
    "trait", "union"].map String.toList
  qualifiers := ["::", "->", "."].map String.toList
  comments_delimited := by decide
  blocks_usable := ⟨List.cons_ne_nil _ _, by decide⟩
  inlineBlocks_usable := by simp
  fallback_ne := by decide
  qualifiers_ne := by decide

/-- A definition; one with a body after an equals sign opens no block, unlike a definition
whose name ends in that sign. -/
def defOpener : OpenerRule :=
  ⟨.literal "(?:^|\\s)def\\s".toList,
    some (.literal "def\\s+[\\w.?!]+(?:\\(.*\\)\\s*|\\s+)=(?:[^=~>]|$)".toList)⟩

def doOpener : OpenerRule :=
  ⟨.literal "(?:^|[^.:\\w@$])do(?:[^\\w:?!]|$)".toList, none⟩

def classOpener : OpenerRule :=
  ⟨.literal "^\\s*(?:class|module)\\s".toList, none⟩

def caseOpener : OpenerRule :=
  ⟨.literal "(?:^\\s*|=\\s*)(?:case|begin)\\b".toList, none⟩

/-- A condition or loop at the start of a line; a loop with its own `do` is counted by that. -/
def conditionOpener : OpenerRule :=
  ⟨.literal "(?:^\\s*|=\\s*)(?:if|unless|while|until|for)\\s".toList,
    some (.literal "(?:^|\\s)do\\b".toList)⟩

/-- A bare `lambda`; one with a block or arguments of its own is counted by those. -/
def lambdaOpener : OpenerRule :=
  ⟨.literal "^\\s*lambda\\s".toList, some (.literal "(?:^|\\s)do\\b|[\x7b(&]".toList)⟩

def keywordBlocks : BlockRules :=
  ⟨[defOpener, doOpener, classOpener, caseOpener, conditionOpener, lambdaOpener],
    .literal "(?:^|[^.:\\w@$])end(?:[^\\w:?!]|$)".toList⟩

def keyword : Dialect where
  name := "keyword".toList
  comments := ⟨"#".toList, "=begin".toList, "=end".toList, false⟩
  blocks := keywordBlocks
  inlineBlocks := some braceBlocks
  implicitOpen := true
  fallback := .fail
  definitionKeywords := ["def", "class", "module"].map String.toList
  qualifiers := ["::", "."].map String.toList
  comments_delimited := by decide
  blocks_usable := ⟨List.cons_ne_nil _ _, by decide⟩
  inlineBlocks_usable := fun rules h => by
    cases h
    exact ⟨List.cons_ne_nil _ _, by decide⟩
  fallback_ne := by decide
  qualifiers_ne := by decide

end CodeSpan.Dialect
