import CodeSpan.Pattern.Search

/-!
# Facts about searches

Every stop of an expression is a place in the text that its cursor splits. The first of all
hits is the hit that a single search finds, so a text has hits exactly when it has a first one.
-/

namespace CodeSpan

theorem Cursor.advance_ne {c : Cursor} {x : Char} {rest : List Char} (h : c.after = x :: rest) :
    c.advance x rest ≠ c := by
  intro heq
  have hlen := congrArg (fun d : Cursor => d.after.length) heq
  simp [advance, h] at hlen

namespace Expr

section Stops

variable {R : Cursor → Cursor → Prop} (hrefl : ∀ c, R c c)
  (htrans : ∀ {c d e}, R c d → R d e → R c e)
  (hadvance : ∀ {c x rest}, c.after = x :: rest → R c (c.advance x rest))

include hrefl htrans

theorem rel_of_mem_moreRounds {round : Cursor → List Cursor} {isLazy : Bool}
    (hround : ∀ {c d : Cursor}, d ∈ round c → R c d) {fuel : Nat} {c d : Cursor}
    (h : d ∈ moreRounds round isLazy fuel c) : R c d := by
  induction fuel generalizing c with
  | zero =>
      rw [moreRounds, List.mem_singleton] at h
      rw [h]
      exact hrefl c
  | succ fuel ih =>
      have hsplit : d = c ∨ ∃ e ∈ (round c).filter (· ≠ c), d ∈ moreRounds round isLazy fuel e := by
        rw [moreRounds] at h
        cases isLazy <;> simp only [if_true, Bool.false_eq_true, if_false, List.mem_append,
          List.mem_cons, List.mem_flatMap, List.not_mem_nil, or_false] at h
        · exact h.symm
        · exact h
      rcases hsplit with rfl | ⟨e, he, hd⟩
      · exact hrefl d
      · exact htrans (hround (List.mem_filter.1 he).1) (ih hd)

include hadvance

/-- A relation that every single step keeps holds between a cursor and its stops. -/
theorem rel_of_mem_stops {p : Expr} {c d : Cursor} (h : d ∈ p.stops c) : R c d := by
  induction p generalizing c d with
  | empty =>
      rw [stops, List.mem_singleton] at h
      rw [h]
      exact hrefl c
  | set s =>
      rw [stops] at h
      split at h
      · cases h
      · next x rest hc =>
          split at h
          · rw [List.mem_singleton.1 h]
            exact hadvance hc
          · cases h
  | textStart | textEnd | wordEdge =>
      rw [stops] at h
      split at h
      · rw [List.mem_singleton.1 h]
        exact hrefl c
      · cases h
  | notWordEdge =>
      rw [stops] at h
      split at h
      · cases h
      · rw [List.mem_singleton.1 h]
        exact hrefl c
  | seq p q ihp ihq =>
      rw [stops, List.mem_eraseDups, List.mem_flatMap] at h
      obtain ⟨e, he, hd⟩ := h
      exact htrans (ihp he) (ihq hd)
  | alt p q ihp ihq =>
      rw [stops, List.mem_eraseDups, List.mem_append] at h
      exact h.elim ihp ihq
  | opt p isLazy ih =>
      rw [stops, List.mem_eraseDups] at h
      have hsplit : d = c ∨ d ∈ p.stops c := by
        cases isLazy <;> simp_all [or_comm]
      rcases hsplit with rfl | hd
      · exact hrefl d
      · exact ih hd
  | plus p isLazy ih =>
      rw [stops, List.mem_eraseDups, List.mem_flatMap] at h
      obtain ⟨e, he, hd⟩ := h
      split at hd
      · rw [List.mem_singleton.1 hd]
        exact hrefl c
      · exact htrans (ih he) (rel_of_mem_moreRounds hrefl htrans ih hd)

end Stops

theorem text_of_mem_stops {p : Expr} {c d : Cursor} (h : d ∈ p.stops c) : d.text = c.text :=
  rel_of_mem_stops (R := fun c d => d.text = c.text) (fun _ => rfl) (fun h h' => h'.trans h)
    Cursor.text_advance h

/-- What is read before a cursor stays read at every stop. -/
theorem before_suffix_of_mem_stops {p : Expr} {c d : Cursor} (h : d ∈ p.stops c) :
    c.before <:+ d.before :=
  rel_of_mem_stops (R := fun c d => c.before <:+ d.before) (fun c => List.suffix_refl c.before)
    (fun h h' => h.trans h') (fun _ => List.suffix_cons _ _) h

theorem hitAt?_false (p : Expr) (c : Cursor) :
    p.hitAt? false c = (p.stops c).head?.map fun d => ⟨c, d⟩ := by
  unfold hitAt?
  cases (p.stops c).head? <;> simp

theorem head?_hitsFrom (p : Expr) (c : Cursor) (s : List Char) :
    (p.hitsFrom c 0 false s).head? = p.findFrom? c s := by
  induction s generalizing c with
  | nil =>
      rw [hitsFrom, hitAt?_false, findFrom?]
      cases (p.stops c).head? <;> rfl
  | cons x rest ih =>
      rw [hitsFrom, hitAt?_false, findFrom?]
      cases (p.stops c).head? with
      | none => exact ih _
      | some d => rfl

theorem head?_hits (p : Expr) (s : List Char) : (p.hits s).head? = p.find? s :=
  p.head?_hitsFrom _ s

theorem countHits_eq_zero_iff {p : Expr} {s : List Char} :
    p.countHits s = 0 ↔ p.find? s = none := by
  rw [countHits, List.length_eq_zero_iff, ← head?_hits, List.head?_eq_none_iff]

end Expr
end CodeSpan
