import CodeSpan.Dialect.Builtin
import CodeSpan.Path

/-!
# Choosing a dialect

A dialect in stock is chosen by name, or from the path of a file: a few file names decide by
themselves, and otherwise the extension does, whatever its case.
-/

namespace CodeSpan

inductive DialectKind where
  | brace
  | keyword
deriving DecidableEq

namespace DialectKind

def name : DialectKind → List Char
  | .brace => "brace".toList
  | .keyword => "keyword".toList

def ofName? (s : List Char) : Option DialectKind :=
  [brace, keyword].find? fun k => k.name = s

def dialect : DialectKind → Dialect
  | .brace => Dialect.brace
  | .keyword => Dialect.keyword

def braceExtensions : List (List Char) :=
  ["c", "h", "cc", "cpp", "cxx", "hh", "hpp", "hxx", "cs", "dart", "go", "java", "js", "jsx", "kt",
    "kts", "m", "mjs", "php", "rs", "scala", "swift", "ts", "tsx"].map String.toList

def keywordExtensions : List (List Char) :=
  ["rb", "rake", "gemspec", "ru", "rbw"].map String.toList

def keywordFileNames : List (List Char) :=
  ["Rakefile", "Gemfile", "Guardfile", "Podfile", "Vagrantfile"].map String.toList

def ofExtension? (extension : List Char) : Option DialectKind :=
  let extension := extension.map Char.toLower
  if braceExtensions.contains extension then some .brace
  else if keywordExtensions.contains extension then some .keyword
  else none

def forPath? (p : Path) : Option DialectKind := do
  let name ← Path.fileName? p
  if keywordFileNames.contains name then some .keyword
  else (Path.extensionOf? name).bind ofExtension?

end DialectKind
end CodeSpan
