import CodeSpan.Proofs.Failing
import CodeSpan.Proofs.Segment
import CodeSpan.Workspace.Glob
import Mathlib.Data.List.TakeWhile

/-!
# Reading glob patterns

A pattern is read token by token, piece by piece. A piece without wildcards is read as the
literal name that it is, and two stars stand for any depth only where they are a piece of their
own. The pieces of a pattern behind the path of a directory are those of the path, followed by
its own.
-/

namespace CodeSpan

namespace Glob

variable {piece s rest base : List Char} {names : List (List Char)} {ps first : List Part}
  {ts : List GlobToken} {token : GlobToken} {position fuel : Nat} {previous : Option Char}
  {c : Char}

/-- The characters that do not stand for themselves in a pattern. -/
def special : List Char :=
  ['*', '?', '[']

theorem next_of_notMem (h : c ∉ special) : next position previous c s = .ok (.char c, s) := by
  simp only [special, List.mem_cons, List.not_mem_nil, or_false, not_or] at h
  unfold next
  split
  · exact absurd rfl h.2.1
  · exact absurd rfl h.1
  · exact absurd rfl h.2.2
  · rfl

theorem tokensFrom_plain (h : ∀ c ∈ s, c ∉ special) (hfuel : s.length ≤ fuel) :
    tokensFrom fuel position previous s = .ok (s.map .char) := by
  induction s generalizing fuel position previous with
  | nil => cases fuel <;> rfl
  | cons c s ih =>
      cases fuel with
      | zero => cases hfuel
      | succ fuel =>
          have hrest : ∀ c' ∈ s, c' ∉ special := fun c' hc' => h c' (List.mem_cons_of_mem c hc')
          rw [tokensFrom, next_of_notMem (h c List.mem_cons_self)]
          simp only [ih hrest (Nat.le_of_succ_le_succ hfuel), List.map_cons]

theorem tokens_plain (h : ∀ c ∈ s, c ∉ special) : tokens s = .ok (s.map .char) :=
  tokensFrom_plain h (Nat.le_refl _)

theorem suffix_of_bracketBody? {set : List Char} (h : bracketBody? s = some (set, rest)) :
    rest <:+ s := by
  cases s with
  | nil => cases h
  | cons c s =>
      rw [bracketBody?] at h
      split at h
      · cases h
      · next d after hd =>
          cases h
          have hrest : d :: rest <:+ s := hd ▸ List.dropWhile_suffix _
          exact ((List.suffix_cons d rest).trans hrest).trans (List.suffix_cons c s)

/-- What is read of a pattern at a time; two stars are read only between separators. -/
theorem next_cases (h : next position previous c s = .ok (token, rest)) :
    rest <:+ s ∧ (token = .anyDepth → previous.any (· ≠ '/') = false ∧
      (c :: s = ['*', '*'] ∨ '/' ∈ s)) := by
  unfold next at h
  split at h
  · cases h
    exact ⟨List.suffix_refl s, fun heq => by cases heq⟩
  · unfold stars at h
    have hsuffix : s.dropWhile (· = '*') <:+ s := List.dropWhile_suffix _
    split_ifs at h with hone htwo hprevious
    · cases h
      exact ⟨hsuffix, fun heq => by cases heq⟩
    · split at h
      · next hdrop =>
          cases h
          have hall : s.takeWhile (· = '*') = s := by
            conv_rhs => rw [← List.takeWhile_append_dropWhile (p := (· = '*')) (l := s), hdrop]
            rw [List.append_nil]
          rw [hall] at htwo
          obtain ⟨d, rfl⟩ := List.length_eq_one_iff.1 (show s.length = 1 by omega)
          have hd : d = '*' := by simpa using List.takeWhile_eq_self_iff.1 hall
          exact ⟨List.nil_suffix, fun _ => ⟨by simpa using hprevious, .inl (by rw [hd])⟩⟩
      · next after hdrop =>
          cases h
          rw [hdrop] at hsuffix
          exact ⟨(List.suffix_cons _ rest).trans hsuffix, fun _ => ⟨by simpa using hprevious,
            .inr (hsuffix.subset List.mem_cons_self)⟩⟩
      · cases h
  · split at h
    · split at h
      · next hbody =>
          cases h
          exact ⟨(suffix_of_bracketBody? hbody).trans (List.suffix_cons _ _),
          fun heq => by cases heq⟩
      · cases h
    · split at h
      · next hbody =>
          cases h
          exact ⟨suffix_of_bracketBody? hbody, fun heq => by cases heq⟩
      · cases h
  · cases h
    exact ⟨List.suffix_refl s, fun heq => by cases heq⟩

/-- A piece is read token by token. Only its first token can stand for any depth, and only if it
is all of the piece. -/
theorem exists_next_of_tokensFrom (hslash : '/' ∉ c :: s)
    (h : tokensFrom (fuel + 1) position previous (c :: s) = .ok ts) :
    ∃ token rest tokens position' previous', ts = token :: tokens ∧
      (token = .anyDepth → previous.any (· ≠ '/') = false ∧ c :: s = ['*', '*']) ∧
      '/' ∉ rest ∧ previous'.any (· ≠ '/') = true ∧
      tokensFrom fuel position' previous' rest = .ok tokens := by
  rw [tokensFrom] at h
  split at h
  · cases h
  · next token rest hnext =>
      obtain ⟨⟨read, hread⟩, hdepth⟩ := next_cases hnext
      dsimp only at h
      split at h
      · cases h
      · next tokens htokens =>
          cases h
          have hsplit : c :: s = (c :: read) ++ rest := by rw [← hread, List.cons_append]
          have hlength : (c :: s).length - rest.length = (c :: read).length := by
            rw [hsplit, List.length_append]
            omega
          rw [hlength, hsplit, List.take_left] at htokens
          have hslash' := hslash
          rw [hsplit, List.mem_append, not_or] at hslash'
          refine ⟨token, rest, tokens, _, _, rfl, fun heq => ?_, hslash'.2, ?_, htokens⟩
          · obtain ⟨hprevious, hpiece⟩ := hdepth heq
            exact ⟨hprevious, hpiece.resolve_right fun hmem =>
              hslash (List.mem_cons_of_mem c hmem)⟩
          · have hlast : (c :: read).getLast (List.cons_ne_nil c read) ≠ '/' := fun heq =>
              hslash'.1 (heq ▸ List.getLast_mem _)
            simpa [List.getLast?_eq_some_getLast (List.cons_ne_nil c read)] using hlast

theorem anyDepth_notMem_tokensFrom (hprevious : previous.any (· ≠ '/') = true) (hslash : '/' ∉ s)
    (h : tokensFrom fuel position previous s = .ok ts) : .anyDepth ∉ ts := by
  induction fuel generalizing position previous s ts with
  | zero => cases s <;> cases h <;> exact List.not_mem_nil
  | succ fuel ih =>
      cases s with
      | nil =>
          cases h
          exact List.not_mem_nil
      | cons c s =>
          obtain ⟨token, rest, tokens, _, _, rfl, hdepth, hrest, hread, htokens⟩ :=
            exists_next_of_tokensFrom hslash h
          rw [List.mem_cons, not_or]
          refine ⟨fun heq => ?_, ih hread hrest htokens⟩
          rw [(hdepth heq.symm).1] at hprevious
          cases hprevious

/-- A piece stands for any depth only if it is two stars. -/
theorem anyDepth_notMem_tokens (hslash : '/' ∉ piece) (hstars : piece ≠ ['*', '*'])
    (h : tokens piece = .ok ts) : .anyDepth ∉ ts := by
  cases piece with
  | nil =>
      cases h
      exact List.not_mem_nil
  | cons c s =>
      obtain ⟨token, rest, tokens, _, _, rfl, hdepth, hrest, hread, htokens⟩ :=
        exists_next_of_tokensFrom hslash h
      rw [List.mem_cons, not_or]
      exact ⟨fun heq => hstars (hdepth heq.symm).2,
        anyDepth_notMem_tokensFrom hread hrest htokens⟩

theorem eq_map_of_literal? {name : List Char} (h : literal? ts = some name) :
    ts = name.map .char := by
  induction ts generalizing name with
  | nil =>
      cases h
      rfl
  | cons x ts ih =>
      unfold literal? at h
      split at h
      · next heq => cases heq
      · next heq =>
          cases heq
          obtain ⟨rest, hrest, rfl⟩ := Option.map_eq_some_iff.1 h
          rw [List.map_cons, ih hrest]
      · cases h

theorem ofTokens_plain (s : List Char) : Part.ofTokens (s.map .char) = .literal s := by
  have h : literal? (s.map .char) = some s := by
    induction s with
    | nil => rfl
    | cons c s ih => rw [List.map_cons, literal?, ih]; rfl
  rw [Part.ofTokens, h]

theorem anyDepth_ne_ofTokens (h : .anyDepth ∉ ts) : .anyDepth ≠ Part.ofTokens ts := by
  unfold Part.ofTokens
  cases literal? ts with
  | some name => exact fun heq => by cases heq
  | none =>
      dsimp only
      rw [if_neg h]
      exact fun heq => by cases heq

theorem collapse_append (h : .anyDepth ∉ first) (ps : List Part) :
    collapse (first ++ ps) = first ++ collapse ps := by
  induction first with
  | nil => rfl
  | cons p first ih =>
      rw [List.mem_cons, not_or] at h
      rw [List.cons_append, collapse, ih h.2, List.cons_append]
      exact fun _ hp => absurd hp.symm h.1

theorem mem_of_mem_collapse {p : Part} (h : p ∈ collapse ps) : p ∈ ps := by
  fun_induction collapse ps with
  | case1 ps ih => exact List.mem_cons_of_mem _ (ih h)
  | case2 q ps _ ih =>
      rcases List.mem_cons.1 h with rfl | h
      · exact List.mem_cons_self
      · exact List.mem_cons_of_mem q (ih h)
  | case3 => exact h

theorem mapM_tokens_plain (h : ∀ piece ∈ names, ∀ c ∈ piece, c ∉ special) :
    names.mapM tokens = .ok (names.map fun piece => piece.map .char) := by
  induction names with
  | nil => rfl
  | cons piece names ih =>
      have hrest := ih fun p hp => h p (List.mem_cons_of_mem piece hp)
      rw [List.mapM_cons, tokens_plain (h piece List.mem_cons_self), hrest]
      rfl

theorem mem_splitOn_of_mem_pieces (h : piece ∈ pieces s) : piece ∈ List.splitOn '/' s := by
  unfold pieces at h
  dsimp only at h
  split_ifs at h
  · exact List.dropLast_subset _ h
  · exact h

theorem pieces_of_split {text : List Char}
    (h : List.splitOn '/' text = names ++ List.splitOn '/' s) :
    pieces text = names ++ pieces s := by
  have hne := List.splitOn_ne_nil '/' s
  unfold pieces
  dsimp only
  rw [h, List.getLast?_append_of_ne_nil names hne]
  split_ifs
  · exact List.dropLast_append_of_ne_nil hne
  · rfl

/-- The text of a pattern that is parted into pieces. -/
def body (pattern : List Char) : List Char :=
  if pattern.head? = some '/' then pattern.drop 1 else pattern

end Glob

end CodeSpan
