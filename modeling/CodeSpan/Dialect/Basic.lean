import CodeSpan.Comment
import CodeSpan.Dialect.Rules

/-!
# Dialects

A dialect describes a family of languages: its comments, its blocks, what to do with a block
that never closes, and how names are defined and qualified. A dialect that could not work
does not exist, because the conditions on its parts are part of the type.
-/

namespace CodeSpan

/-- What stands in for a block that never closes. -/
inductive Fallback where
  | fail
  | window (size : Nat)
deriving DecidableEq

inductive DialectField where
  | commentSyntax
  | lineMarker
  | blockMarkers
  | blockRules
  | closerPattern
  | qualifier
deriving DecidableEq

def DialectField.shown : DialectField → List Char
  | .commentSyntax => "comment syntax".toList
  | .lineMarker => "line comment marker".toList
  | .blockMarkers => "block comment markers".toList
  | .blockRules => "block rules".toList
  | .closerPattern => "closer pattern".toList
  | .qualifier => "qualifier separator".toList

inductive DialectError where
  | emptyField (dialect : List Char) (field : DialectField)
  | noOpeners (dialect : List Char)
  | invalidPattern (pattern : List Char)
  | emptyWindow
deriving DecidableEq

def DialectError.message : DialectError → List Char
  | .emptyField dialect field =>
      "dialect '".toList ++ dialect ++ "': ".toList ++ field.shown ++
        " must not be empty".toList
  | .noOpeners dialect => "dialect '".toList ++ dialect ++ "' has no block opener rules".toList
  | .invalidPattern pattern => "invalid pattern `".toList ++ pattern ++ "`".toList
  | .emptyWindow => "fallback window must cover at least one line".toList

structure Dialect where
  name : List Char
  comments : CommentSyntax
  blocks : BlockRules
  /-- Rules that replace `blocks` when the start line opens one of their blocks first. -/
  inlineBlocks : Option BlockRules
  /-- Whether a start line without an opener counts as already inside a block. -/
  implicitOpen : Bool
  fallback : Fallback
  definitionKeywords : List (List Char)
  qualifiers : List (List Char)
  comments_delimited : comments.Delimited
  blocks_usable : blocks.Usable
  inlineBlocks_usable : ∀ rules ∈ inlineBlocks, rules.Usable
  fallback_ne : fallback ≠ .window 0
  qualifiers_ne : [] ∉ qualifiers

namespace Dialect

def withFallback (d : Dialect) (fallback : Fallback) : Except DialectError Dialect :=
  if h : fallback = .window 0 then .error .emptyWindow
  else .ok { d with fallback := fallback, fallback_ne := h }

end Dialect
end CodeSpan
