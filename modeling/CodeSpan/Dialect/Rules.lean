import CodeSpan.Pattern.Basic

/-!
# Block rules

An opener rule counts the hits of its pattern on a line of code, unless the line also matches
the exception of the rule. Block rules join several openers with the one closer that balances
them.
-/

namespace CodeSpan

structure OpenerRule where
  pattern : Pattern
  exception : Option Pattern

namespace OpenerRule

def applies (rule : OpenerRule) (code : List Char) : Bool :=
  rule.exception.all fun p => !p.isMatch code

def count (rule : OpenerRule) (code : List Char) : Nat :=
  if rule.applies code then rule.pattern.count code else 0

def firstMatch? (rule : OpenerRule) (code : List Char) : Option Nat :=
  if rule.applies code then rule.pattern.firstMatch? code else none

end OpenerRule

structure BlockRules where
  openers : List OpenerRule
  closer : Pattern

namespace BlockRules

def Usable (rules : BlockRules) : Prop :=
  rules.openers ≠ [] ∧ rules.closer.text ≠ []

def countOpens (rules : BlockRules) (code : List Char) : Nat :=
  rules.openers.foldr (fun rule n => rule.count code + n) 0

def countCloses (rules : BlockRules) (code : List Char) : Nat :=
  rules.closer.count code

/-- The byte offset of the leftmost opener. -/
def firstOpener? (rules : BlockRules) (code : List Char) : Option Nat :=
  (rules.openers.filterMap (·.firstMatch? code)).min?

end BlockRules
end CodeSpan
