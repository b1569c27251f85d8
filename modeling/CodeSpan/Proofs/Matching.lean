import CodeSpan.Proofs.LeftContext
import Mathlib.Logic.Relation

/-!
# What an expression matches

An expression matches a stretch of a text if one of its stops at the place before the stretch is
the place behind it. Every way of combining expressions says how the stretches they match are
combined, whichever stop is preferred. The rounds that a repetition drops are those that do not
move, so it still stops wherever a chain of rounds leads.
-/

namespace CodeSpan

namespace Cursor

def between (before after : List Char) : Cursor :=
  ⟨Text.byteLength before.reverse, before.reverse, after, rfl⟩

variable {a b s w : List Char}

theorem between_inj {a' b' : List Char} : between a b = between a' b' ↔ a = a' ∧ b = b' := by
  constructor
  · intro h
    have hbefore : a.reverse = a'.reverse := congrArg Cursor.before h
    have hafter : b = b' := congrArg Cursor.after h
    exact ⟨List.reverse_injective hbefore, hafter⟩
  · rintro ⟨rfl, rfl⟩
    rfl

theorem start_eq_between (s : List Char) : start s = between [] s :=
  eq_of_sides rfl rfl

theorem advance_between (a rest : List Char) (x : Char) :
    (between a (x :: rest)).advance x rest = between (a ++ [x]) rest :=
  eq_of_sides (by simp [advance, between]) rfl

end Cursor

namespace Expr

open Cursor (between between_inj)
open Relation (ReflTransGen TransGen)

variable {p q : Expr} {a b s w : List Char} {c d : Cursor}

/-- A stop lies behind the cursor, and the text between the two is what is taken. -/
theorem exists_between_of_mem_stops (h : d ∈ p.stops (between a s)) :
    ∃ w b, s = w ++ b ∧ d = between (a ++ w) b := by
  have htext := text_of_mem_stops h
  obtain ⟨w, hw⟩ := before_suffix_of_mem_stops h
  have hbefore : d.before.reverse = a ++ w.reverse := by
    rw [← hw]
    simp [between]
  have hsplit : a ++ w.reverse ++ d.after = a ++ s := by
    rw [← hbefore]
    simpa [Cursor.text, between] using htext
  rw [List.append_assoc, List.append_cancel_left_eq] at hsplit
  refine ⟨w.reverse, d.after, hsplit.symm, Cursor.eq_of_sides ?_ rfl⟩
  rw [← hw]
  simp [between]

/-- The stretch between two parts of a text is one that the expression can take. -/
def Matches (p : Expr) (before stretch after : List Char) : Prop :=
  between (before ++ stretch) after ∈ p.stops (between before (stretch ++ after))

theorem matches_empty : empty.Matches a w b ↔ w = [] := by
  rw [Matches, stops, List.mem_singleton, between_inj]
  simp

theorem matches_set {t : CharSet} : (set t).Matches a w b ↔ ∃ x, w = [x] ∧ t.mem x = true := by
  rw [Matches, stops]
  cases w with
  | nil =>
      rw [List.nil_append, List.append_nil]
      cases b with
      | nil => simp [between]
      | cons x rest =>
          have hmoved : between a (x :: rest) ≠ (between a (x :: rest)).advance x rest :=
            (Cursor.advance_ne rfl).symm
          dsimp only [between] at hmoved ⊢
          split <;> simp [hmoved]
  | cons x w =>
      have hafter : (between a (x :: w ++ b)).after = x :: (w ++ b) := rfl
      rw [hafter]
      dsimp only
      split
      · next hx =>
          rw [List.mem_singleton, List.cons_append, Cursor.advance_between, between_inj]
          simp [hx]
      · next hx => simp [hx]

theorem matches_textStart : textStart.Matches a w b ↔ w = [] ∧ a = [] := by
  rw [Matches, stops]
  split
  · next ha =>
      have hnil : a = [] := by simpa [between] using ha
      rw [List.mem_singleton, between_inj]
      simp [hnil]
  · next ha =>
      have hne : a ≠ [] := by simpa [between] using ha
      simp [hne]

theorem matches_textEnd : textEnd.Matches a w b ↔ w = [] ∧ b = [] := by
  rw [Matches, stops]
  split
  · next hb =>
      have hnil : w = [] ∧ b = [] := by simpa [between] using hb
      rw [List.mem_singleton, between_inj]
      simp [hnil]
  · next hb =>
      have hne : ¬ (w = [] ∧ b = []) := by simpa [between] using hb
      simp [hne]

theorem matches_seq : (seq p q).Matches a w b ↔
    ∃ u v, w = u ++ v ∧ p.Matches a u (v ++ b) ∧ q.Matches (a ++ u) v b := by
  rw [Matches, stops, List.mem_eraseDups, List.mem_flatMap]
  constructor
  · rintro ⟨e, he, hd⟩
    obtain ⟨u, rest, hu, rfl⟩ := exists_between_of_mem_stops he
    obtain ⟨v, b', hv, heq⟩ := exists_between_of_mem_stops hd
    obtain ⟨hw, rfl⟩ := between_inj.1 heq
    rw [List.append_assoc, List.append_cancel_left_eq] at hw
    subst hw
    refine ⟨u, v, rfl, ?_, ?_⟩
    · rw [Matches, ← hv, ← hu]
      exact he
    · rw [Matches, ← hv, List.append_assoc]
      exact hd
  · rintro ⟨u, v, rfl, hp, hq⟩
    refine ⟨between (a ++ u) (v ++ b), ?_, ?_⟩
    · rw [List.append_assoc]
      exact hp
    · rw [← List.append_assoc]
      exact hq

theorem matches_alt : (alt p q).Matches a w b ↔ p.Matches a w b ∨ q.Matches a w b := by
  rw [Matches, stops, List.mem_eraseDups, List.mem_append]
  rfl

theorem matches_opt {isLazy : Bool} :
    (opt p isLazy).Matches a w b ↔ w = [] ∨ p.Matches a w b := by
  have hnil : between (a ++ w) b = between a (w ++ b) ↔ w = [] := by
    rw [between_inj]
    simp
  rw [Matches, stops, List.mem_eraseDups, Matches, ← hnil]
  cases isLazy <;> simp [or_comm]

theorem length_after_lt_of_mem_stops (h : d ∈ p.stops c) (hne : d ≠ c) :
    d.after.length < c.after.length := by
  obtain ⟨w, hw⟩ := before_suffix_of_mem_stops h
  have htext := text_of_mem_stops h
  have hlen := congrArg List.length htext
  rw [Cursor.text, Cursor.text, ← hw] at hlen
  simp only [List.length_append, List.length_reverse] at hlen
  cases w with
  | nil =>
      rw [Cursor.text, Cursor.text, ← hw, List.nil_append, List.append_cancel_left_eq] at htext
      exact absurd (Cursor.eq_of_sides hw.symm htext) hne
  | cons x w =>
      rw [List.length_cons] at hlen
      omega

/-- A chain of steps ends where it began, or its first step that moves can be told. -/
theorem reflTransGen_iff_moves {α : Type} {r : α → α → Prop} {x y : α} :
    ReflTransGen r x y ↔ y = x ∨ ∃ z, r x z ∧ z ≠ x ∧ ReflTransGen r z y := by
  constructor
  · intro h
    induction h using ReflTransGen.head_induction_on with
    | refl => exact .inl rfl
    | @head x z hxz hzy ih =>
        by_cases hz : z = x
        · rwa [hz] at ih
        · exact .inr ⟨z, hxz, hz, hzy⟩
  · rintro (rfl | ⟨z, hxz, -, hzy⟩)
    · exact .refl
    · exact hzy.head hxz

theorem mem_moreRounds_iff {isLazy : Bool} {fuel : Nat} (hfuel : c.after.length ≤ fuel) :
    d ∈ moreRounds p.stops isLazy fuel c ↔ ReflTransGen (fun c d => d ∈ p.stops c) c d := by
  induction fuel generalizing c with
  | zero =>
      rw [moreRounds, List.mem_singleton, reflTransGen_iff_moves]
      refine ⟨.inl, ?_⟩
      rintro (rfl | ⟨e, he, hne, -⟩)
      · rfl
      · have hlt := length_after_lt_of_mem_stops he hne
        omega
  | succ fuel ih =>
      have hsplit : d ∈ moreRounds p.stops isLazy (fuel + 1) c ↔
          d = c ∨ ∃ e ∈ p.stops c, e ≠ c ∧ d ∈ moreRounds p.stops isLazy fuel e := by
        rw [moreRounds]
        cases isLazy <;> simp [or_comm, and_assoc]
      rw [hsplit, reflTransGen_iff_moves]
      refine or_congr Iff.rfl (exists_congr fun e => and_congr_right fun he => ?_)
      refine and_congr_right fun hne => ih ?_
      have hlt := length_after_lt_of_mem_stops he hne
      omega

/-- A part that is repeated stops wherever one round or more of it lead. -/
theorem mem_stops_plus {isLazy : Bool} :
    d ∈ (plus p isLazy).stops c ↔ TransGen (fun c d => d ∈ p.stops c) c d := by
  rw [stops, List.mem_eraseDups, List.mem_flatMap, TransGen.head'_iff]
  constructor
  · rintro ⟨e, he, hd⟩
    refine ⟨e, he, ?_⟩
    split at hd
    · next hec =>
        rw [List.mem_singleton.1 hd, hec]
    · exact (mem_moreRounds_iff (Nat.le_refl _)).1 hd
  · rintro ⟨e, he, hd⟩
    by_cases hec : e = c
    · -- The first round need not move; then the one after it may take its place.
      subst hec
      rcases reflTransGen_iff_moves.1 hd with rfl | ⟨e', he', hne, hd'⟩
      · exact ⟨d, he, by simp⟩
      · exact ⟨e', he', by rw [if_neg hne]; exact (mem_moreRounds_iff (Nat.le_refl _)).2 hd'⟩
    · exact ⟨e, he, by rw [if_neg hec]; exact (mem_moreRounds_iff (Nat.le_refl _)).2 hd⟩

theorem matches_plus {isLazy : Bool} : (plus p isLazy).Matches a w b ↔ p.Matches a w b ∨
    ∃ u v, w = u ++ v ∧ p.Matches a u (v ++ b) ∧ (plus p isLazy).Matches (a ++ u) v b := by
  rw [Matches, mem_stops_plus, TransGen.head'_iff]
  constructor
  · rintro ⟨e, he, hd⟩
    rcases Relation.reflTransGen_iff_eq_or_transGen.1 hd with rfl | hmore
    · exact .inl he
    · obtain ⟨u, rest, hu, rfl⟩ := exists_between_of_mem_stops he
      replace hmore : between (a ++ w) b ∈ (plus p isLazy).stops (between (a ++ u) rest) :=
        mem_stops_plus.2 hmore
      obtain ⟨v, b', hv, heq⟩ := exists_between_of_mem_stops hmore
      obtain ⟨hw, rfl⟩ := between_inj.1 heq
      rw [List.append_assoc, List.append_cancel_left_eq] at hw
      subst hw
      refine .inr ⟨u, v, rfl, ?_, ?_⟩
      · rw [Matches, ← hv, ← hu]
        exact he
      · rw [Matches, ← hv, List.append_assoc]
        exact hmore
  · rintro (hp | ⟨u, v, rfl, hp, hmore⟩)
    · exact ⟨_, hp, .refl⟩
    · refine ⟨between (a ++ u) (v ++ b), ?_, ?_⟩
      · rw [List.append_assoc]
        exact hp
      · rw [← List.append_assoc]
        exact (mem_stops_plus.1 hmore).to_reflTransGen

theorem matches_plus_set {t : CharSet} {isLazy : Bool} :
    (plus (set t) isLazy).Matches a w b ↔ w ≠ [] ∧ ∀ x ∈ w, t.mem x = true := by
  induction w generalizing a with
  | nil =>
      rw [matches_plus]
      simp [matches_set]
  | cons x w ih =>
      rw [matches_plus, matches_set]
      constructor
      · rintro (⟨y, hw, hy⟩ | ⟨u, v, hw, hu, hv⟩)
        · cases hw
          simpa using hy
        · obtain ⟨y, rfl, hy⟩ := matches_set.1 hu
          obtain ⟨rfl, rfl⟩ := List.cons.inj hw
          exact ⟨List.cons_ne_nil _ _, List.forall_mem_cons.2 ⟨hy, (ih.1 hv).2⟩⟩
      · rintro ⟨-, hall⟩
        rw [List.forall_mem_cons] at hall
        by_cases hw : w = []
        · exact .inl ⟨x, by rw [hw], hall.1⟩
        · exact .inr ⟨[x], w, rfl, matches_set.2 ⟨x, rfl, hall.1⟩, ih.2 ⟨hw, hall.2⟩⟩

theorem matches_concat_nil : (concat []).Matches a w b ↔ w = [] :=
  matches_empty

theorem matches_concat_cons {ps : List Expr} : (concat (p :: ps)).Matches a w b ↔
    ∃ u v, w = u ++ v ∧ p.Matches a u (v ++ b) ∧ (concat ps).Matches (a ++ u) v b := by
  cases ps with
  | nil => simp [matches_empty, concat]
  | cons q ps => rw [concat, matches_seq]

theorem matches_concat_append {ps qs : List Expr} : (concat (ps ++ qs)).Matches a w b ↔
    ∃ u v, w = u ++ v ∧ (concat ps).Matches a u (v ++ b) ∧ (concat qs).Matches (a ++ u) v b := by
  induction ps generalizing a w with
  | nil => simp [matches_concat_nil]
  | cons p ps ih =>
      simp only [List.cons_append, matches_concat_cons, ih]
      constructor
      · rintro ⟨u, v, rfl, hp, v₁, v₂, rfl, hps, hqs⟩
        refine ⟨u ++ v₁, v₂, (List.append_assoc _ _ _).symm, ⟨u, v₁, rfl, ?_, hps⟩, ?_⟩
        · rwa [← List.append_assoc]
        · rwa [← List.append_assoc]
      · rintro ⟨u, v, rfl, ⟨u₁, u₂, rfl, hp, hps⟩, hqs⟩
        refine ⟨u₁, u₂ ++ v, List.append_assoc _ _ _, ?_, u₂, v, rfl, hps, ?_⟩
        · rwa [List.append_assoc]
        · rwa [List.append_assoc]

/-- The characters of a text, each as an expression of its own. -/
def letters (s : List Char) : List Expr :=
  s.map fun c => .set (.single c)

theorem matches_letters : (concat (letters s)).Matches a w b ↔ w = s := by
  induction s generalizing a w with
  | nil => exact matches_concat_nil
  | cons c s ih =>
      rw [letters, List.map_cons, matches_concat_cons]
      simp only [matches_set, CharSet.mem_single]
      constructor
      · rintro ⟨u, v, rfl, ⟨x, rfl, rfl⟩, hv⟩
        rw [ih.1 hv]
        rfl
      · rintro rfl
        exact ⟨[c], s, rfl, ⟨c, rfl, rfl⟩, ih.2 rfl⟩

theorem matches_choice {ps : List Expr} (hne : ps ≠ []) :
    (choice ps).Matches a w b ↔ ∃ p ∈ ps, p.Matches a w b := by
  induction ps with
  | nil => exact absurd rfl hne
  | cons p ps ih =>
      cases ps with
      | nil => simp [choice]
      | cons q ps =>
          rw [choice, matches_alt, ih (List.cons_ne_nil _ _)]
          exact (List.exists_mem_cons_iff (fun r => r.Matches a w b) p (q :: ps)).symm

theorem stops_ne_nil_iff :
    p.stops (between a s) ≠ [] ↔ ∃ w b, s = w ++ b ∧ p.Matches a w b := by
  constructor
  · intro hne
    obtain ⟨d, hd⟩ := List.exists_mem_of_ne_nil _ hne
    obtain ⟨w, b, rfl, rfl⟩ := exists_between_of_mem_stops hd
    exact ⟨w, b, rfl, hd⟩
  · rintro ⟨w, b, rfl, hp⟩
    exact List.ne_nil_of_mem hp

theorem isSome_findFrom?_iff : (p.findFrom? (between a s) s).isSome = true ↔
    ∃ u w b, s = u ++ w ++ b ∧ p.Matches (a ++ u) w b := by
  induction s generalizing a with
  | nil =>
      rw [findFrom?, Option.isSome_map, Option.isSome_iff_ne_none, ne_eq, List.head?_eq_none_iff,
        ← ne_eq, stops_ne_nil_iff]
      constructor
      · rintro ⟨w, b, hs, hp⟩
        exact ⟨[], w, b, hs, by rwa [List.append_nil]⟩
      · rintro ⟨u, w, b, hs, hp⟩
        obtain ⟨rfl, rfl, rfl⟩ : u = [] ∧ w = [] ∧ b = [] := by simpa using hs.symm
        exact ⟨[], [], rfl, by rwa [List.append_nil] at hp⟩
  | cons x rest ih =>
      rw [findFrom?]
      cases hd : (p.stops (between a (x :: rest))).head? with
      | some d =>
          obtain ⟨w, b, hs, hp⟩ :=
            stops_ne_nil_iff.1 (List.ne_nil_of_mem (List.mem_of_mem_head? hd))
          exact iff_of_true rfl ⟨[], w, b, hs, by rwa [List.append_nil]⟩
      | none =>
          have hnone : ¬ ∃ w b, x :: rest = w ++ b ∧ p.Matches a w b := by
            rw [← stops_ne_nil_iff, not_ne_iff, ← List.head?_eq_none_iff, hd]
          dsimp only
          rw [Cursor.advance_between, ih]
          constructor
          · rintro ⟨u, w, b, rfl, hp⟩
            exact ⟨x :: u, w, b, rfl, by simpa using hp⟩
          · rintro ⟨u, w, b, hs, hp⟩
            cases u with
            | nil => exact absurd ⟨w, b, hs, by rwa [List.append_nil] at hp⟩ hnone
            | cons y u =>
                obtain ⟨rfl, rfl⟩ := List.cons.inj hs
                exact ⟨u, w, b, rfl, by simpa using hp⟩

/-- A search succeeds exactly when some stretch of the text is matched. -/
theorem matchesWithin_iff :
    p.matchesWithin s = true ↔ ∃ a w b, s = a ++ w ++ b ∧ p.Matches a w b := by
  rw [matchesWithin, find?, Cursor.start_eq_between, isSome_findFrom?_iff]
  rfl

end Expr

end CodeSpan
