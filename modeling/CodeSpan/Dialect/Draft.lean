import CodeSpan.Dialect.Basic

/-!
# Building dialects

A draft collects the parts of a dialect in any order; a part that is set twice keeps its last
value. Building checks the draft and reports the first condition that fails.
-/

namespace CodeSpan

def compile (text : List Char) : Except DialectError Pattern :=
  match Pattern.ofText? text with
  | some p => .ok p
  | none => .error (.invalidPattern text)

namespace OpenerRule

def ofText (pattern : List Char) : Except DialectError OpenerRule := do
  let p ← compile pattern
  pure ⟨p, none⟩

/-- Lines that match the given text open no block by this rule. -/
def except (rule : OpenerRule) (pattern : List Char) : Except DialectError OpenerRule := do
  let p ← compile pattern
  pure { rule with exception := some p }

end OpenerRule

namespace BlockRules

def ofText (openers : List OpenerRule) (closer : List Char) : Except DialectError BlockRules := do
  let p ← compile closer
  pure ⟨openers, p⟩

def fault? (rules : BlockRules) (dialect : List Char) : Option DialectError :=
  if rules.openers = [] then some (.noOpeners dialect)
  else if rules.closer.text = [] then some (.emptyField dialect .closerPattern)
  else none

theorem usable_of_fault?_eq_none {rules : BlockRules} {dialect : List Char}
    (h : rules.fault? dialect = none) : rules.Usable := by
  unfold fault? at h
  split at h
  · cases h
  · split at h
    · cases h
    · exact ⟨‹_›, ‹_›⟩

end BlockRules

structure Draft where
  name : List Char
  comments : Option CommentSyntax
  blocks : Option BlockRules
  inlineBlocks : Option BlockRules
  implicitOpen : Bool
  fallback : Fallback
  definitionKeywords : List (List Char)
  qualifiers : List (List Char)

namespace Draft

def named (name : List Char) : Draft :=
  ⟨name, none, none, none, false, .fail, [], []⟩

def setComments (d : Draft) (line blockOpen blockClose : List Char) : Draft :=
  { d with comments := some ⟨line, blockOpen, blockClose, false⟩ }

/-- Allows line comments right after code; without comment markers there is nothing to allow. -/
def setGlued (d : Draft) : Draft :=
  { d with comments := d.comments.map fun σ => { σ with glued := true } }

def setBlocks (d : Draft) (rules : BlockRules) : Draft :=
  { d with blocks := some rules }

def setInlineBlocks (d : Draft) (rules : BlockRules) : Draft :=
  { d with inlineBlocks := some rules }

def setImplicitOpen (d : Draft) (implicitOpen : Bool) : Draft :=
  { d with implicitOpen := implicitOpen }

def setFallback (d : Draft) (fallback : Fallback) : Draft :=
  { d with fallback := fallback }

def setDefinitionKeywords (d : Draft) (keywords : List (List Char)) : Draft :=
  { d with definitionKeywords := keywords }

def setQualifiers (d : Draft) (separators : List (List Char)) : Draft :=
  { d with qualifiers := separators }

def build (d : Draft) : Except DialectError Dialect :=
  match d.comments, d.blocks with
  | none, _ => .error (.emptyField d.name .commentSyntax)
  | some comments, blocks =>
      if hl : comments.line = [] then .error (.emptyField d.name .lineMarker)
      else if hb : comments.blockOpen = [] ∨ comments.blockClose = [] then
        .error (.emptyField d.name .blockMarkers)
      else match blocks with
        | none => .error (.emptyField d.name .blockRules)
        | some blocks =>
            match hm : blocks.fault? d.name, hi : d.inlineBlocks.bind (·.fault? d.name) with
            | some e, _ => .error e
            | none, some e => .error e
            | none, none =>
                if hf : d.fallback = .window 0 then .error .emptyWindow
                else if hq : [] ∈ d.qualifiers then .error (.emptyField d.name .qualifier)
                else .ok
                  { d with
                    comments := comments
                    blocks := blocks
                    comments_delimited := ⟨hl, fun h => hb (.inl h), fun h => hb (.inr h)⟩
                    blocks_usable := BlockRules.usable_of_fault?_eq_none hm
                    inlineBlocks_usable := fun _ hr =>
                      BlockRules.usable_of_fault?_eq_none (by simpa [Option.mem_def.1 hr] using hi)
                    fallback_ne := hf
                    qualifiers_ne := hq }

end Draft
end CodeSpan
