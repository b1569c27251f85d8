import CodeSpan.Dialect.Draft
import CodeSpan.Proofs.Stock
import CodeSpan.Settings
import Mathlib.Data.List.Induction

/-!
# Building dialects

A draft takes its parts in any order, and of a part that is given several times the last value
counts. Building it succeeds exactly if the markers of comments and the block rules were given and
no part that a search or a count relies on is empty. Every other way to a dialect begins with a
built one and changes nothing but its fallback, so it leads to a dialect that could have been
built as well.
-/

namespace CodeSpan

theorem BlockRules.fault?_eq_none_iff {rules : BlockRules} {name : List Char} :
    rules.fault? name = none ↔ rules.Usable := by
  constructor
  · exact usable_of_fault?_eq_none
  · rintro ⟨hopeners, hcloser⟩
    rw [fault?, if_neg hopeners, if_neg hcloser]

def Dialect.draft (d : Dialect) : Draft where
  name := d.name
  comments := some d.comments
  blocks := some d.blocks
  inlineBlocks := d.inlineBlocks
  implicitOpen := d.implicitOpen
  fallback := d.fallback
  definitionKeywords := d.definitionKeywords
  qualifiers := d.qualifiers

namespace Draft

variable {draft : Draft} {d e : Dialect} {f : Fallback} {name : List Char}

/-- A draft that has markers for comments and block rules, and no part that must not be empty
and is. -/
structure WellFormed (draft : Draft) : Prop where
  comments : ∃ σ, draft.comments = some σ ∧ σ.Delimited
  blocks : ∃ rules, draft.blocks = some rules ∧ rules.Usable
  inlineBlocks : ∀ rules ∈ draft.inlineBlocks, rules.Usable
  fallback : draft.fallback ≠ .window 0
  qualifiers : [] ∉ draft.qualifiers

theorem of_build (h : draft.build = .ok d) : d.draft = draft ∧ draft.WellFormed := by
  unfold build at h
  split at h
  · cases h
  next comments hcomments =>
  split at h
  · cases h
  next hline =>
  split at h
  · cases h
  next hmarkers =>
  split at h
  · cases h
  next blocks hblocks =>
  split at h
  · cases h
  · cases h
  next hmain hinline =>
  split at h
  · cases h
  next hfallback =>
  split at h
  · cases h
  next hqualifiers =>
  cases h
  refine ⟨by rw [Dialect.draft, ← hcomments, ← hblocks],
    ⟨comments, hcomments, hline, not_or.1 hmarkers⟩,
    ⟨blocks, hblocks, BlockRules.fault?_eq_none_iff.1 hmain⟩, fun rules hrules => ?_,
    hfallback, hqualifiers⟩
  exact BlockRules.fault?_eq_none_iff.1 (Option.bind_eq_none_iff.1 hinline rules hrules)

theorem build_setFallback (d : Dialect) (f : Fallback) :
    (d.draft.setFallback f).build = d.withFallback f := by
  have hinline : d.inlineBlocks.bind (·.fault? d.name) = none :=
    Option.bind_eq_none_iff.2 fun rules h =>
      BlockRules.fault?_eq_none_iff.2 (d.inlineBlocks_usable rules h)
  unfold build Dialect.draft setFallback Dialect.withFallback
  dsimp only
  rw [dif_neg d.comments_delimited.1, dif_neg (not_or.2 d.comments_delimited.2)]
  split
  · next hmain =>
      rw [BlockRules.fault?_eq_none_iff.2 d.blocks_usable] at hmain
      cases hmain
  · next hfault =>
      rw [hinline] at hfault
      cases hfault
  · by_cases hf : f = .window 0
    · rw [dif_pos hf, dif_pos hf]
    · rw [dif_neg hf, dif_neg hf, dif_neg d.qualifiers_ne]

theorem build_draft (d : Dialect) : d.draft.build = .ok d := by
  have h := build_setFallback d d.fallback
  rwa [Dialect.withFallback_eq_ok_iff.2 ⟨d.fallback_ne, rfl⟩] at h

theorem build_eq_ok_iff : draft.build = .ok d ↔ d.draft = draft :=
  ⟨fun h => (of_build h).1, fun h => h ▸ build_draft d⟩

theorem exists_build_iff : (∃ d, draft.build = .ok d) ↔ draft.WellFormed := by
  constructor
  · rintro ⟨d, h⟩
    exact (of_build h).2
  · rintro ⟨⟨σ, hσ, hdelimited⟩, ⟨rules, hrules, husable⟩, hinline, hfallback, hqualifiers⟩
    refine ⟨⟨draft.name, σ, rules, draft.inlineBlocks, draft.implicitOpen, draft.fallback,
      draft.definitionKeywords, draft.qualifiers, hdelimited, husable, hinline, hfallback,
      hqualifiers⟩, build_eq_ok_iff.2 ?_⟩
    rw [Dialect.draft, ← hσ, ← hrules]

theorem WellFormed.setFallback (h : draft.WellFormed) (hf : f ≠ .window 0) :
    (draft.setFallback f).WellFormed :=
  ⟨h.comments, h.blocks, h.inlineBlocks, hf, h.qualifiers⟩

/-- A call that gives a draft one of its parts. -/
inductive Call where
  | comments (line blockOpen blockClose : List Char)
  | glued
  | blocks (rules : BlockRules)
  | inlineBlocks (rules : BlockRules)
  | implicitOpen (implicitOpen : Bool)
  | fallback (f : Fallback)
  | definitionKeywords (keywords : List (List Char))
  | qualifiers (separators : List (List Char))

def apply (draft : Draft) : Call → Draft
  | .comments line blockOpen blockClose => draft.setComments line blockOpen blockClose
  | .glued => draft.setGlued
  | .blocks rules => draft.setBlocks rules
  | .inlineBlocks rules => draft.setInlineBlocks rules
  | .implicitOpen implicitOpen => draft.setImplicitOpen implicitOpen
  | .fallback f => draft.setFallback f
  | .definitionKeywords keywords => draft.setDefinitionKeywords keywords
  | .qualifiers separators => draft.setQualifiers separators

/-- The draft after some calls, the first of which is made on a draft with nothing but a name. -/
def run (name : List Char) (calls : List Call) : Draft :=
  calls.foldl apply (named name)

namespace Call

def markers? : Call → Option (List Char × List Char × List Char)
  | .comments line blockOpen blockClose => some (line, blockOpen, blockClose)
  | _ => none

def isGlued : Call → Bool
  | .glued => true
  | _ => false

def blocks? : Call → Option BlockRules
  | .blocks rules => some rules
  | _ => none

def inlineBlocks? : Call → Option BlockRules
  | .inlineBlocks rules => some rules
  | _ => none

def implicitOpen? : Call → Option Bool
  | .implicitOpen inside => some inside
  | _ => none

def fallback? : Call → Option Fallback
  | .fallback f => some f
  | _ => none

def definitionKeywords? : Call → Option (List (List Char))
  | .definitionKeywords keywords => some keywords
  | _ => none

def qualifiers? : Call → Option (List (List Char))
  | .qualifiers separators => some separators
  | _ => none

end Call

def lastGiven {α : Type} (part? : Call → Option α) (calls : List Call) : Option α :=
  (calls.filterMap part?).getLast?

theorem lastGiven_concat {α : Type} (part? : Call → Option α) (calls : List Call) (call : Call) :
    lastGiven part? (calls ++ [call]) = (part? call).or (lastGiven part? calls) := by
  rw [lastGiven, List.filterMap_append, List.getLast?_append]
  cases h : part? call <;> simp [h, lastGiven]

/-- Whether line markers were allowed right after code since the markers were given last. -/
def gluedLast (calls : List Call) : Bool :=
  (calls.reverse.takeWhile fun call => call.markers?.isNone).any (·.isGlued)

/-- The draft with the parts that were given last. -/
def ofLastGiven (name : List Char) (calls : List Call) : Draft where
  name := name
  comments := (lastGiven Call.markers? calls).map fun (line, blockOpen, blockClose) =>
    ⟨line, blockOpen, blockClose, gluedLast calls⟩
  blocks := lastGiven Call.blocks? calls
  inlineBlocks := lastGiven Call.inlineBlocks? calls
  implicitOpen := (lastGiven Call.implicitOpen? calls).getD false
  fallback := (lastGiven Call.fallback? calls).getD .fail
  definitionKeywords := (lastGiven Call.definitionKeywords? calls).getD []
  qualifiers := (lastGiven Call.qualifiers? calls).getD []

theorem ofLastGiven_concat (name : List Char) (calls : List Call) (call : Call) :
    ofLastGiven name (calls ++ [call]) = (ofLastGiven name calls).apply call := by
  have hglued : gluedLast (calls ++ [call]) =
      (call.markers?.isNone && (call.isGlued || gluedLast calls)) := by
    rw [gluedLast, List.reverse_append, List.reverse_singleton, List.singleton_append,
      List.takeWhile_cons]
    cases call <;> rfl
  simp only [ofLastGiven, lastGiven_concat, hglued]
  cases call with
  | glued =>
      rw [apply, setGlued]
      dsimp only
      rw [Option.map_map]
      rfl
  | _ => rfl

theorem run_eq_ofLastGiven (name : List Char) (calls : List Call) :
    run name calls = ofLastGiven name calls := by
  induction calls using List.reverseRecOn with
  | nil => rfl
  | append_singleton calls call ih =>
      rw [ofLastGiven_concat, ← ih, run, List.foldl_append]
      rfl

/-- Line markers are allowed right after code only for markers that were given before. -/
example : (run "c".toList [.glued, .comments ['#'] ['<'] ['>']]).comments.map (·.glued) =
    some false := rfl

/-- Calls that gave, last, what a dialect needs, and nothing last that it cannot have. -/
structure Complete (calls : List Call) : Prop where
  comments : ∃ line blockOpen blockClose,
    lastGiven Call.markers? calls = some (line, blockOpen, blockClose) ∧
      line ≠ [] ∧ blockOpen ≠ [] ∧ blockClose ≠ []
  blocks : ∃ rules, lastGiven Call.blocks? calls = some rules ∧ rules.Usable
  inlineBlocks : ∀ rules, lastGiven Call.inlineBlocks? calls = some rules → rules.Usable
  fallback : lastGiven Call.fallback? calls ≠ some (.window 0)
  qualifiers : ∀ separators, lastGiven Call.qualifiers? calls = some separators → [] ∉ separators

theorem wellFormed_ofLastGiven_iff {calls : List Call} :
    (ofLastGiven name calls).WellFormed ↔ Complete calls := by
  constructor
  · rintro ⟨⟨σ, hσ, hdelimited⟩, hblocks, hinline, hfallback, hqualifiers⟩
    obtain ⟨⟨line, blockOpen, blockClose⟩, hmarkers, rfl⟩ := Option.map_eq_some_iff.1 hσ
    refine ⟨⟨line, blockOpen, blockClose, hmarkers, hdelimited⟩, hblocks, hinline,
      fun hlast => hfallback ?_, fun separators hlast => ?_⟩
    · rw [ofLastGiven, hlast, Option.getD_some]
    · rwa [ofLastGiven, hlast, Option.getD_some] at hqualifiers
  · rintro ⟨⟨line, blockOpen, blockClose, hmarkers, hdelimited⟩, hblocks, hinline, hfallback,
      hqualifiers⟩
    refine ⟨⟨⟨line, blockOpen, blockClose, gluedLast calls⟩, ?_, hdelimited⟩, hblocks, hinline,
      ?_, ?_⟩
    · rw [ofLastGiven, hmarkers, Option.map_some]
    · rw [ofLastGiven]
      cases hlast : lastGiven Call.fallback? calls with
      | none => simp
      | some f => exact fun hzero => hfallback (hlast.trans (congrArg some hzero))
    · rw [ofLastGiven]
      cases hlast : lastGiven Call.qualifiers? calls with
      | none => simp
      | some separators => exact hqualifiers separators hlast

/-- Calls that give, one after the other, the parts of a dialect. -/
def callsFor (d : Dialect) : List Call :=
  .comments d.comments.line d.comments.blockOpen d.comments.blockClose ::
    ((if d.comments.glued then [.glued] else []) ++
      (.blocks d.blocks :: (d.inlineBlocks.toList.map .inlineBlocks ++
        [.implicitOpen d.implicitOpen, .fallback d.fallback,
          .definitionKeywords d.definitionKeywords, .qualifiers d.qualifiers])))

theorem build_callsFor (d : Dialect) : (run d.name (callsFor d)).build = .ok d := by
  obtain ⟨name, ⟨line, blockOpen, blockClose, glued⟩, blocks, inlineBlocks, _, _, _, _⟩ := d
  rw [build_eq_ok_iff]
  cases glued <;> cases inlineBlocks <;> rfl

end Draft

namespace Dialect

variable {d e : Dialect} {f : Fallback} {s : Settings} {file : Path}

/-- The ways to a dialect: building it, giving another fallback to one, and choosing one for a
file. -/
inductive Obtainable : Dialect → Prop where
  | built {name : List Char} {calls : List Draft.Call} {d : Dialect} :
      (Draft.run name calls).build = .ok d → Obtainable d
  | withFallback {d e : Dialect} {f : Fallback} :
      Obtainable d → d.withFallback f = .ok e → Obtainable e
  | chosen {s : Settings} {file : Path} {d : Dialect} :
      s.dialectFor file = .ok d → Obtainable d

theorem draft_inj : d.draft = e.draft ↔ d = e := by
  constructor
  · intro h
    have hd := Draft.build_draft d
    rw [h, Draft.build_draft e] at hd
    exact (Except.ok.inj hd).symm
  · rintro rfl
    rfl

/-- Another fallback is refused if it is a window without lines, and changes nothing else. -/
theorem withFallback_eq_ok_iff_draft :
    d.withFallback f = .ok e ↔ f ≠ .window 0 ∧ e.draft = d.draft.setFallback f := by
  rw [← Draft.build_setFallback, Draft.build_eq_ok_iff]
  constructor
  · intro h
    exact ⟨fun hf => e.fallback_ne ((congrArg Draft.fallback h).trans hf), h⟩
  · exact fun h => h.2

def fallbackIn (d : Dialect) (s : Settings) : Fallback :=
  match s.window with
  | none => d.fallback
  | some size => .window size

theorem dialectFor_eq_ok_iff : s.dialectFor file = .ok d ↔
    ∃ kind : DialectKind, (s.dialect <|> DialectKind.forPath? file) = some kind ∧
      s.window ≠ some 0 ∧ d.draft = kind.dialect.draft.setFallback (kind.dialect.fallbackIn s) := by
  unfold Settings.dialectFor fallbackIn
  cases s.dialect <|> DialectKind.forPath? file with
  | none => simp
  | some kind =>
      cases hw : s.window with
      | none =>
          have hsame : kind.dialect.draft.setFallback kind.dialect.fallback =
              kind.dialect.draft := rfl
          simp [hsame, draft_inj, eq_comm]
      | some size =>
          have hmap : ∀ r : Except DialectError Dialect,
              r.mapError Fault.dialect = .ok d ↔ r = .ok d := by
            rintro (e | e) <;> simp [Except.mapError]
          simp [hmap, withFallback_eq_ok_iff_draft]

theorem wellFormed_of_obtainable (h : Obtainable d) : d.draft.WellFormed := by
  induction h with
  | built hbuild =>
      obtain ⟨hdraft, hwell⟩ := Draft.of_build hbuild
      exact hdraft ▸ hwell
  | withFallback _ hf ih =>
      obtain ⟨hne, hdraft⟩ := withFallback_eq_ok_iff_draft.1 hf
      rw [hdraft]
      exact ih.setFallback hne
  | chosen hfile =>
      obtain ⟨kind, -, hwindow, hdraft⟩ := dialectFor_eq_ok_iff.1 hfile
      obtain ⟨hstock, hwell⟩ := Draft.of_build (Draft.build_callsFor kind.dialect)
      rw [← hstock] at hwell
      rw [hdraft]
      refine hwell.setFallback ?_
      unfold fallbackIn
      split
      · exact hwell.fallback
      · next size hsize =>
          rintro ⟨⟩
          exact hwindow hsize

/-- Calls build a dialect exactly if the parts they gave last are those of one, and then it has
just these parts. Every dialect that can be obtained has markers of comments and openers and
closers that are not empty, no empty separator and no window without lines; another fallback, or
the window of settings, changes nothing else of it. -/
theorem dialects_wellFormed :
    (∀ name calls, (∃ d, (Draft.run name calls).build = .ok d) ↔ Draft.Complete calls) ∧
    (∀ name calls d, (Draft.run name calls).build = .ok d →
      d.draft = Draft.ofLastGiven name calls) ∧
    (∀ d, Obtainable d → d.draft.WellFormed) ∧
    (∀ (d e : Dialect) f, d.withFallback f = .ok e ↔
      f ≠ .window 0 ∧ e.draft = d.draft.setFallback f) ∧
    (∀ (s : Settings) file d, s.dialectFor file = .ok d ↔ ∃ kind : DialectKind,
      (s.dialect <|> DialectKind.forPath? file) = some kind ∧ s.window ≠ some 0 ∧
      d.draft = kind.dialect.draft.setFallback (kind.dialect.fallbackIn s)) := by
  refine ⟨fun name calls => ?_, fun name calls d h => ?_, fun d => wellFormed_of_obtainable,
    fun d e f => withFallback_eq_ok_iff_draft, fun s file d => dialectFor_eq_ok_iff⟩
  · rw [Draft.exists_build_iff, Draft.run_eq_ofLastGiven, Draft.wellFormed_ofLastGiven_iff]
  · rw [← Draft.run_eq_ofLastGiven]
    exact Draft.build_eq_ok_iff.1 h

end Dialect
end CodeSpan
