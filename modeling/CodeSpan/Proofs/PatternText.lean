import CodeSpan.Locate.Query
import CodeSpan.Proofs.Matching

/-!
# Reading the text of a pattern

The text of a pattern is cut into tokens from the left, and one token is told from the characters
it is written with and what follows it. In a text that is escaped every character is a token of
its own and stands for itself. Tokens that stand for characters add those to the group being read,
and texts with bars between them add a branch each.
-/

namespace CodeSpan.Pattern

variable {s rest : List Char} {t : Token} {ts : List Token} {c : Char}

/-- The tokens of a text, found with any fuel that the length of the text allows. -/
def CutInto (s : List Char) (ts : List Token) : Prop :=
  ∀ fuel, s.length ≤ fuel → tokensWithin? fuel s = some ts

namespace CutInto

theorem nil : CutInto [] [] := by
  intro fuel _
  cases fuel <;> rfl

theorem token (hnext : next? c s = some (t, rest)) (hle : rest.length ≤ s.length)
    (h : CutInto rest ts) : CutInto (c :: s) (t :: ts) := by
  intro fuel hfuel
  rw [List.length_cons] at hfuel
  cases fuel with
  | zero => omega
  | succ fuel =>
      rw [tokensWithin?, hnext]
      change (t :: ·) <$> tokensWithin? fuel rest = _
      rw [h fuel (by omega)]
      rfl

theorem sign (hnext : next? c s = some (t, s)) (h : CutInto s ts) : CutInto (c :: s) (t :: ts) :=
  h.token hnext (Nat.le_refl _)

theorem escaped (hnext : escapedToken? c = some t) (h : CutInto s ts) :
    CutInto ('\\' :: c :: s) (t :: ts) := by
  refine h.token ?_ (Nat.le_succ _)
  change (escapedToken? c).map (fun t => (t, s)) = _
  rw [hnext]
  rfl

theorem opening (h : CutInto s ts) : CutInto ('(' :: '?' :: ':' :: s) (.opening :: ts) :=
  h.token rfl (by simp only [List.length_cons]; omega)

theorem set {u : CharSet} (hclass : class? s = some (u, rest)) (hle : rest.length ≤ s.length)
    (h : CutInto rest ts) : CutInto ('[' :: s) (.set u :: ts) := by
  refine h.token ?_ hle
  change (class? s).map (fun p => (Token.set p.1, p.2)) = _
  rw [hclass]
  rfl

theorem tokens?_eq (h : CutInto s ts) : tokens? s = some ts :=
  h s.length (Nat.le_refl _)

end CutInto

/-- The tokens that stand for the characters of a text. -/
def letterTokens (s : List Char) : List Token :=
  s.map fun c => .set (.single c)

theorem escapedToken?_of_special (h : c ∈ specialChars) :
    escapedToken? c = some (.set (.single c)) := by
  have hall : specialChars.all (fun c => escapedToken? c = some (.set (.single c))) = true := rfl
  exact of_decide_eq_true (List.all_eq_true.1 hall c h)

theorem next?_of_not_special (h : c ∉ specialChars) (s : List Char) :
    next? c s = some (.set (.single c), s) := by
  rw [next?.eq_def]
  split
  case h_13 => rfl
  all_goals exact absurd (by decide) h

theorem escape_cons (c : Char) (s : List Char) :
    escape (c :: s) = (if c ∈ specialChars then ['\\', c] else [c]) ++ escape s := by
  rw [escape, List.flatMap_cons, escape]

theorem CutInto.letters (h : CutInto rest ts) (s : List Char) :
    CutInto (escape s ++ rest) (letterTokens s ++ ts) := by
  induction s with
  | nil => exact h
  | cons c s ih =>
      rw [escape_cons, letterTokens, List.map_cons]
      split
      · next hc => exact ih.escaped (escapedToken?_of_special hc)
      · next hc => exact ih.sign (next?_of_not_special hc _)

/-- The tokens of several texts with bars between them. -/
def branchTokens (texts : List (List Char)) : List Token :=
  [Token.bar].intercalate (texts.map letterTokens)

theorem CutInto.branches (h : CutInto rest ts) (texts : List (List Char)) :
    CutInto (['|'].intercalate (texts.map escape) ++ rest) (branchTokens texts ++ ts) := by
  induction texts with
  | nil => exact h
  | cons s texts ih =>
      cases texts with
      | nil => simpa [branchTokens] using h.letters s
      | cons s' texts =>
          have hbar := (ih.sign (c := '|') (t := .bar) rfl).letters s
          simpa [branchTokens, List.intercalate_cons_cons] using hbar

namespace Reading

theorem foldlM_letters (branches items : List Expr) (repeatable : Bool) (outer : List Group)
    (s : List Char) :
    (letterTokens s).foldlM step ⟨⟨branches, items, repeatable, false⟩, outer⟩ =
      some ⟨⟨branches, (Expr.letters s).reverse ++ items, repeatable || !s.isEmpty, false⟩,
        outer⟩ := by
  induction s generalizing items repeatable with
  | nil => simp [letterTokens, Expr.letters]
  | cons c s ih =>
      have hstep : step ⟨⟨branches, items, repeatable, false⟩, outer⟩ (.set (.single c)) =
          some ⟨⟨branches, .set (.single c) :: items, true, false⟩, outer⟩ := rfl
      rw [letterTokens, List.map_cons, List.foldlM_cons, hstep]
      change (letterTokens s).foldlM step _ = _
      rw [ih]
      simp [Expr.letters]

/-- Texts with bars between them are read into a group that offers each of them. -/
theorem foldlM_branches {texts : List (List Char)} (hne : texts ≠ []) (branches : List Expr)
    (repeatable : Bool) (outer : List Group) :
    ∃ g : Group, (branchTokens texts).foldlM step ⟨⟨branches, [], repeatable, false⟩, outer⟩ =
        some ⟨g, outer⟩ ∧
      g.toExpr = Expr.choice (branches.reverse ++
        texts.map fun s => Expr.concat (Expr.letters s)) := by
  induction texts generalizing branches repeatable with
  | nil => exact absurd rfl hne
  | cons s texts ih =>
      have hletters := foldlM_letters branches [] repeatable outer s
      rw [List.append_nil] at hletters
      cases texts with
      | nil =>
          refine ⟨_, by simpa [branchTokens] using hletters, ?_⟩
          simp [Group.toExpr]
      | cons s' texts =>
          obtain ⟨g, hg, hexpr⟩ := ih (List.cons_ne_nil _ _)
            (Expr.concat (Expr.letters s) :: branches) false
          refine ⟨g, ?_, ?_⟩
          · have hsplit : branchTokens (s :: s' :: texts) =
                letterTokens s ++ .bar :: branchTokens (s' :: texts) := by
              simp [branchTokens, List.intercalate_cons_cons]
            rw [hsplit, List.foldlM_append, hletters]
            simpa [List.foldlM_cons, step, Group.nextBranch] using hg
          · simpa using hexpr

end Reading

end CodeSpan.Pattern
