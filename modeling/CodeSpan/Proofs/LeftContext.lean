import CodeSpan.Pattern.Lemmas
import Mathlib.Data.List.Basic

/-!
# Patterns see one character back

An expression looks at the text before a cursor through the nearest character only. When more
text is put before a cursor that has some text before it already, the stops and the hits stay
the same and move along with the text.
-/

namespace CodeSpan

theorem findSome?_congr {α β : Type} {f g : α → Option β} {l : List α} (h : ∀ a ∈ l, f a = g a) :
    l.findSome? f = l.findSome? g := by
  rw [← List.head?_filterMap, ← List.head?_filterMap, List.filterMap_congr h]

section EraseDups

variable {α β : Type} [DecidableEq α]

theorem eraseDups_map [DecidableEq β] {f : α → β} (hf : Function.Injective f) (l : List α) :
    (l.map f).eraseDups = l.eraseDups.map f := by
  induction hn : l.length using Nat.strongRecOn generalizing l with
  | _ n ih =>
      cases l with
      | nil => rfl
      | cons a l =>
          have hfilter : (l.map f).filter (fun b => !b == f a) =
              (l.filter fun b => !b == a).map f := by
            rw [List.filter_map]
            congr 1
            apply List.filter_congr
            intro b _
            simp [hf.eq_iff]
          have hlt : (l.filter fun b => !b == a).length < n := by
            have := List.length_filter_le (fun b => !b == a) l
            rw [List.length_cons] at hn
            omega
          rw [List.map_cons, List.eraseDups_cons, hfilter, ih _ hlt _ rfl, List.eraseDups_cons,
            List.map_cons]

theorem findSome?_filter_ne {f : α → Option β} {a : α} (ha : f a = none) (l : List α) :
    (l.filter fun b => !b == a).findSome? f = l.findSome? f := by
  induction l with
  | nil => rfl
  | cons x l ih =>
      by_cases hx : x = a
      · subst hx
        simpa [ha] using ih
      · rw [List.filter_cons_of_pos (by simpa using hx), List.findSome?_cons, List.findSome?_cons,
          ih]

theorem findSome?_eraseDups (f : α → Option β) (l : List α) :
    l.eraseDups.findSome? f = l.findSome? f := by
  induction hn : l.length using Nat.strongRecOn generalizing l with
  | _ n ih =>
      cases l with
      | nil => rfl
      | cons a l =>
          have hlt : (l.filter fun b => !b == a).length < n := by
            have := List.length_filter_le (fun b => !b == a) l
            rw [List.length_cons] at hn
            omega
          rw [List.eraseDups_cons, List.findSome?_cons, List.findSome?_cons, ih _ hlt _ rfl]
          cases ha : f a with
          | some b => rfl
          | none => exact findSome?_filter_ne ha l

theorem head?_eraseDups (l : List α) : l.eraseDups.head? = l.head? := by
  cases l with
  | nil => rfl
  | cons a l => rw [List.eraseDups_cons, List.head?_cons, List.head?_cons]

end EraseDups

namespace Cursor

variable {c d : Cursor} {pre : List Char}

theorem eq_of_sides (hb : c.before = d.before) (ha : c.after = d.after) : c = d := by
  obtain ⟨offset, before, after, hoffset⟩ := c
  obtain ⟨offset', before', after', hoffset'⟩ := d
  cases hb
  cases ha
  cases hoffset
  cases hoffset'
  rfl

/-- The same place with more text in front of everything that is before it. -/
def extend (c : Cursor) (pre : List Char) : Cursor :=
  ⟨c.offset + Text.byteLength pre, c.before ++ pre, c.after, by simp [c.offset_eq]⟩

@[simp] theorem after_extend (c : Cursor) (pre : List Char) : (c.extend pre).after = c.after := rfl

theorem extend_injective (pre : List Char) : Function.Injective fun c : Cursor => c.extend pre := by
  intro c d h
  apply eq_of_sides
  · have hbefore : c.before ++ pre = d.before ++ pre := congrArg Cursor.before h
    exact List.append_cancel_right hbefore
  · have hafter : (c.extend pre).after = (d.extend pre).after := congrArg Cursor.after h
    exact hafter

theorem extend_advance (c : Cursor) (pre : List Char) (x : Char) (rest : List Char) :
    (c.extend pre).advance x rest = (c.advance x rest).extend pre :=
  eq_of_sides rfl rfl

theorem head?_before_extend (hc : c.before ≠ []) :
    (c.extend pre).before.head? = c.before.head? :=
  List.head?_append_of_ne_nil _ hc

theorem atWordEdge_extend (hc : c.before ≠ []) : (c.extend pre).atWordEdge = c.atWordEdge := by
  rw [atWordEdge, atWordEdge, head?_before_extend hc, after_extend]

theorem isEmpty_before_extend (hc : c.before ≠ []) :
    (c.extend pre).before.isEmpty = c.before.isEmpty := by
  have hne : c.before ++ pre ≠ [] := List.append_ne_nil_of_left_ne_nil hc pre
  rw [List.isEmpty_eq_false_iff.2 hc]
  exact List.isEmpty_eq_false_iff.2 hne

end Cursor

namespace Expr

variable {p q : Expr} {c d : Cursor} {pre : List Char}

theorem before_ne_nil_of_mem_stops (h : d ∈ p.stops c) (hc : c.before ≠ []) : d.before ≠ [] := by
  intro hd
  have hsuffix := before_suffix_of_mem_stops h
  rw [hd, List.suffix_nil] at hsuffix
  exact hc hsuffix

theorem moreRounds_extend {round : Cursor → List Cursor} (pre : List Char)
    (hround : ∀ {c : Cursor}, c.before ≠ [] →
      round (c.extend pre) = (round c).map (·.extend pre))
    (hne : ∀ {c d : Cursor}, d ∈ round c → c.before ≠ [] → d.before ≠ []) (isLazy : Bool)
    (fuel : Nat) (hc : c.before ≠ []) :
    moreRounds round isLazy fuel (c.extend pre) =
      (moreRounds round isLazy fuel c).map (·.extend pre) := by
  induction fuel generalizing c with
  | zero => rfl
  | succ fuel ih =>
      have hfilter : (round (c.extend pre)).filter (· ≠ c.extend pre) =
          ((round c).filter (· ≠ c)).map (·.extend pre) := by
        rw [hround hc, List.filter_map]
        congr 1
        apply List.filter_congr
        intro d _
        simp [(Cursor.extend_injective pre).eq_iff]
      have hfurther : ((round (c.extend pre)).filter (· ≠ c.extend pre)).flatMap
          (moreRounds round isLazy fuel) =
            (((round c).filter (· ≠ c)).flatMap (moreRounds round isLazy fuel)).map
              (·.extend pre) := by
        rw [hfilter, List.flatMap_map, List.map_flatMap]
        apply List.flatMap_congr
        intro d hd
        exact ih (hne (List.mem_filter.1 hd).1 hc)
      rw [moreRounds, moreRounds, hfurther]
      cases isLazy <;> simp

/-- Text that is put before the text before a cursor only moves its stops. -/
theorem stops_extend (p : Expr) (pre : List Char) (hc : c.before ≠ []) :
    p.stops (c.extend pre) = (p.stops c).map (·.extend pre) := by
  have hinj := Cursor.extend_injective pre
  -- Only `textStart` and the word edges look to the left, and no further than one character.
  induction p generalizing c with
  | empty => rfl
  | set s =>
      rw [stops, stops, Cursor.after_extend]
      cases c.after with
      | nil => rfl
      | cons x rest =>
          dsimp only
          rw [Cursor.extend_advance]
          split <;> rfl
  | textStart =>
      rw [stops, stops, Cursor.isEmpty_before_extend hc]
      split <;> rfl
  | textEnd =>
      rw [stops, stops, Cursor.after_extend]
      split <;> rfl
  | wordEdge | notWordEdge =>
      rw [stops, stops, Cursor.atWordEdge_extend hc]
      split <;> rfl
  | seq p q ihp ihq =>
      have hflat : (p.stops (c.extend pre)).flatMap q.stops =
          ((p.stops c).flatMap q.stops).map (·.extend pre) := by
        rw [ihp hc, List.flatMap_map, List.map_flatMap]
        apply List.flatMap_congr
        intro d hd
        exact ihq (before_ne_nil_of_mem_stops hd hc)
      rw [stops, stops, hflat, eraseDups_map hinj]
  | alt p q ihp ihq =>
      rw [stops, stops, ihp hc, ihq hc, ← List.map_append, eraseDups_map hinj]
  | opt p isLazy ih =>
      rw [stops, stops, ih hc, ← eraseDups_map hinj]
      cases isLazy <;> simp
  | plus p isLazy ih =>
      have hflat : ((p.stops (c.extend pre)).flatMap fun d =>
            if d = c.extend pre then [c.extend pre]
            else moreRounds p.stops isLazy d.after.length d) =
          ((p.stops c).flatMap fun d =>
            if d = c then [c] else moreRounds p.stops isLazy d.after.length d).map
              (·.extend pre) := by
        rw [ih hc, List.flatMap_map, List.map_flatMap]
        apply List.flatMap_congr
        intro d hd
        by_cases hdc : d = c
        · subst hdc
          rw [if_pos rfl, if_pos rfl]
          rfl
        · have hne : d.extend pre ≠ c.extend pre := fun h => hdc (hinj h)
          rw [if_neg hdc, if_neg hne, Cursor.after_extend]
          exact moreRounds_extend pre ih before_ne_nil_of_mem_stops isLazy _
            (before_ne_nil_of_mem_stops hd hc)
      rw [stops, stops, hflat, eraseDups_map hinj]

/-- The hit at a cursor moves along if the preferred stop does. -/
theorem hitAt?_extend
    (h : (p.stops (c.extend pre)).head? = (p.stops c).head?.map (·.extend pre))
    (touching : Bool) :
    p.hitAt? touching (c.extend pre) =
      (p.hitAt? touching c).map fun h => ⟨h.first.extend pre, h.last.extend pre⟩ := by
  rw [hitAt?, hitAt?, h]
  cases (p.stops c).head? with
  | none => rfl
  | some d =>
      have heq : d.extend pre = c.extend pre ↔ d = c := (Cursor.extend_injective pre).eq_iff
      simp only [Option.map_some, heq]
      split <;> rfl

theorem length_hitsFrom_extend (p : Expr) (pre : List Char) (hc : c.before ≠ []) (skip : Nat)
    (touching : Bool) (s : List Char) :
    (p.hitsFrom (c.extend pre) skip touching s).length =
      (p.hitsFrom c skip touching s).length := by
  have hhead : ∀ {c : Cursor}, c.before ≠ [] →
      (p.stops (c.extend pre)).head? = (p.stops c).head?.map (·.extend pre) := by
    intro c hc
    rw [p.stops_extend pre hc, List.head?_map]
  induction s generalizing c skip touching with
  | nil =>
      cases skip with
      | succ skip => rfl
      | zero =>
          rw [hitsFrom, hitsFrom, hitAt?_extend (hhead hc)]
          cases p.hitAt? touching c <;> rfl
  | cons x rest ih =>
      have hnext : ∀ skip touching,
          (p.hitsFrom ((c.extend pre).advance x rest) skip touching rest).length =
            (p.hitsFrom (c.advance x rest) skip touching rest).length := by
        intro skip touching
        rw [Cursor.extend_advance]
        exact ih (List.cons_ne_nil _ _) skip touching
      cases skip with
      | succ skip =>
          rw [hitsFrom, hitsFrom]
          exact hnext skip true
      | zero =>
          rw [hitsFrom, hitsFrom, hitAt?_extend (hhead hc)]
          cases p.hitAt? touching c with
          | none => exact hnext 0 false
          | some h =>
              have hlen : (h.last.extend pre).before.length - (c.extend pre).before.length =
                  h.last.before.length - c.before.length := by
                simp only [Cursor.extend, List.length_append]
                omega
              simp only [Option.map_some, hlen, List.length_cons, hnext]

end Expr

end CodeSpan
