import CodeSpan.Proofs.GlobPattern
import CodeSpan.Workspace.GlobSearch

/-!
# What a glob pattern reaches

A pattern is followed one part at a time. Literal parts lead where the pieces of a path would
lead. Any other part leads from a directory to that directory itself or to something below it,
unless it matches the two dots that stand for the directory above; then, and only then, a match
can lie outside.
-/

namespace CodeSpan

namespace Tree

variable {t : Tree} {l m : Location} {pieces rest : List (List Char)}

theorem entryAt?_isSome_of_isDirectory (h : t.isDirectory l = true) :
    (t.entryAt? l).isSome = true := by
  unfold isDirectory at h
  split at h
  · next heq => rw [heq]; rfl
  · cases h

theorem isFile_eq_false_of_isDirectory (h : t.isDirectory l = true) : t.isFile l = false := by
  unfold isDirectory at h
  unfold isFile
  split at h
  · next heq => rw [heq]
  · cases h

/-- The location that a piece of a path names from a directory, whether anything is there or not. -/
def beside (l : Location) (piece : List Char) : Location :=
  if piece = [] ∨ piece = ['.'] then l
  else if piece = ['.', '.'] then l.dropLast
  else l ++ [piece]

theorem follow?_cons (l : Location) (piece : List Char) (pieces : List (List Char)) :
    t.follow? l (piece :: pieces) =
      if t.isDirectory l then t.follow? (beside l piece) pieces else none := by
  conv_lhs => unfold follow?
  split_ifs
  · split
    · rfl
    · rfl
    · rfl
    · next h h' h'' => rw [beside, if_neg (not_or.2 ⟨h, h'⟩), if_neg h'']
  · rfl

theorem isSome_entryAt?_of_follow? (h : t.follow? l pieces = some m) :
    (t.entryAt? l).isSome = true := by
  cases pieces with
  | nil =>
      rw [follow?] at h
      split_ifs at h with hl
      exact hl
  | cons piece pieces =>
      rw [follow?_cons] at h
      split_ifs at h with hl
      exact entryAt?_isSome_of_isDirectory hl

theorem follow?_append (l : Location) (pieces rest : List (List Char)) :
    t.follow? l (pieces ++ rest) = (t.follow? l pieces).bind fun m => t.follow? m rest := by
  induction pieces generalizing l with
  | nil =>
      rw [List.nil_append, follow?]
      split_ifs with h
      · rfl
      · cases rest with
        | nil => exact if_neg h
        | cons piece rest =>
            rw [follow?_cons]
            exact if_neg fun hdir => h (entryAt?_isSome_of_isDirectory hdir)
  | cons piece pieces ih =>
      rw [List.cons_append, follow?_cons, follow?_cons]
      split_ifs
      · exact ih _
      · rfl

theorem prefix_beside {piece : List Char} (h : piece ≠ ['.', '.']) : l <+: beside l piece := by
  unfold beside
  split_ifs
  · exact List.prefix_refl l
  · exact List.prefix_append l _

theorem exists_of_mem_descendants (h : m ∈ t.descendants l) :
    m ∈ t.entries.map (·.1) ∧ ∃ rest, rest ≠ [] ∧ m = l ++ rest := by
  obtain ⟨hmem, hbelow⟩ := List.mem_filter.1 (List.mem_mergeSort.1 h)
  cases hrest : l.below? m with
  | none =>
      rw [hrest] at hbelow
      cases hbelow
  | some rest =>
      rw [hrest] at hbelow
      exact ⟨hmem, rest, by simpa using hbelow, Location.below?_eq_some_iff.1 hrest⟩

theorem proper_of_mem_children {name : List Char} (h : name ∈ t.children l) : ProperName name := by
  obtain ⟨m, hm, hname⟩ := List.mem_filterMap.1 h
  obtain ⟨e, he, rfl⟩ := List.mem_map.1 (exists_of_mem_descendants hm).1
  split at hname
  · next n hbelow =>
      cases hname
      have hloc := Location.below?_eq_some_iff.1 hbelow
      exact t.proper e he name (by rw [hloc]; simp)
  · cases hname

end Tree

namespace Glob

variable {t : Tree} {l m dir : Location} {name piece : List Char} {ps first : List Part}
  {ts : List GlobToken}

/-- A part of a pattern that can match the directory above the one it is compared with. -/
def Part.LeadsUp : Part → Prop
  | .literal name => name = ['.', '.']
  | .wildcard ts => ['.', '.'] ∈ dotNames ts
  | .anyDepth => False

def leadsUp (piece : List Char) : Bool :=
  match tokens piece with
  | .ok ts => ts.head? = some (.char '.') && matchesName ts ['.', '.']
  | .error _ => false

example : ["..", ".*", ".?", "*", "?.", ".c*"].map (fun s => leadsUp s.toList) =
    [true, true, true, false, false, false] := by
  decide +kernel

theorem not_leadsUp_ofTokens (hts : tokens piece = .ok ts) (hup : leadsUp piece = false) :
    ¬ (Part.ofTokens ts).LeadsUp := by
  have hdots : ¬ (ts.head? = some (.char '.') ∧ matchesName ts ['.', '.'] = true) := by
    rintro ⟨hhead, hmatch⟩
    simp [leadsUp, hts, hhead, hmatch] at hup
  unfold Part.ofTokens
  cases hname : literal? ts with
  | some name =>
      rintro (rfl : name = ['.', '.'])
      exact hdots (by rw [eq_map_of_literal? hname]; decide)
  | none =>
      dsimp only
      split_ifs
      · exact id
      · intro (hmem : ['.', '.'] ∈ dotNames ts)
        unfold dotNames at hmem
        split_ifs at hmem with hhead
        · exact hdots ⟨hhead, (List.mem_filter.1 hmem).2⟩
        · cases hmem

theorem eq_beside_of_step? (h : step? t l name = some m) : m = Tree.beside l name := by
  unfold step? at h
  split at h
  · cases h
    rfl
  · cases h
    rfl
  · cases h
    rfl
  · next hn hn' hn'' =>
      split_ifs at h
      cases h
      rw [Tree.beside, if_neg (not_or.2 ⟨hn, hn'⟩), if_neg hn'']

theorem step?_eq_some (h : (t.entryAt? (Tree.beside l name)).isSome = true) :
    step? t l name = some (Tree.beside l name) := by
  unfold step?
  split
  · rfl
  · rfl
  · rfl
  · next hn hn' hn'' =>
      rw [Tree.beside, if_neg (not_or.2 ⟨hn, hn'⟩), if_neg hn''] at h ⊢
      exact if_pos h

theorem reach_literals {names : List (List Char)} (hfollow : t.follow? l names = some dir) :
    reach t (names.map .literal) l = [dir] := by
  induction names generalizing l with
  | nil =>
      rw [Tree.follow?] at hfollow
      split_ifs at hfollow
      cases hfollow
      rfl
  | cons name names ih =>
      rw [Tree.follow?_cons] at hfollow
      split_ifs at hfollow with hdir
      have hstep := step?_eq_some (Tree.isSome_entryAt?_of_follow? hfollow)
      rw [List.map_cons, reach, if_pos hdir, hstep]
      simpa using ih hfollow

/-- A pattern is followed in two stages, if its first stage does not end in any depth. -/
theorem reach_append (h : .anyDepth ∉ first) (ps : List Part) (l : Location) :
    reach t (first ++ ps) l = (reach t first l).flatMap (reach t ps) := by
  induction first generalizing l with
  | nil => rw [List.nil_append, reach, List.flatMap_singleton]
  | cons p first ih =>
      rw [List.mem_cons, not_or] at h
      have hrest : reach t (first ++ ps) = fun k => (reach t first k).flatMap (reach t ps) :=
        funext (ih h.2)
      cases p with
      | literal name =>
          rw [List.cons_append, reach, reach, hrest]
          split_ifs
          · rw [List.flatMap_assoc]
          · rfl
      | wildcard ts =>
          rw [List.cons_append, reach, reach, hrest]
          split_ifs
          · rw [List.flatMap_assoc]
          · rfl
      | anyDepth => exact absurd rfl h.1

theorem prefix_of_step? (hname : name ≠ ['.', '.']) (h : step? t l name = some m) : l <+: m :=
  eq_beside_of_step? h ▸ Tree.prefix_beside hname

/-- One part, or two stars with the part behind them, leads to where the rest goes on; unless the
part leads up that is nowhere but below. -/
theorem exists_step_of_mem_reach {p : Part} (h : m ∈ reach t (p :: ps) l) :
    ∃ rest k, rest <:+ ps ∧ (¬ p.LeadsUp → l <+: k) ∧ m ∈ reach t rest k := by
  cases p with
  | literal name =>
      rw [reach] at h
      split_ifs at h
      · obtain ⟨k, hk, hm⟩ := List.mem_flatMap.1 h
        refine ⟨ps, k, List.suffix_refl ps, fun hup => ?_, hm⟩
        exact prefix_of_step? hup (Option.mem_toList.1 hk)
      · cases h
  | wildcard ts =>
      rw [reach] at h
      split_ifs at h
      · obtain ⟨k, hk, hm⟩ := List.mem_flatMap.1 h
        obtain ⟨name, hname, hstep⟩ := List.mem_filterMap.1 hk
        refine ⟨ps, k, List.suffix_refl ps, fun hup => prefix_of_step? ?_ hstep, hm⟩
        rcases List.mem_append.1 hname with hdots | hchild
        · rintro rfl
          exact hup hdots
        · exact (Tree.proper_of_mem_children (List.mem_of_mem_filter hchild)).2.2.2
      · cases h
  | anyDepth =>
      cases ps with
      | nil => cases h
      | cons p ps =>
          obtain ⟨k, hk, hm⟩ := List.mem_flatMap.1 h
          obtain ⟨-, rest, -, rfl⟩ := Tree.exists_of_mem_descendants (List.mem_of_mem_filter hk)
          exact ⟨ps, l ++ rest, List.suffix_cons p ps, fun _ => List.prefix_append l rest, hm⟩

/-- A pattern without a part that leads up reaches nothing but what lies below its start. -/
theorem prefix_of_mem_reach (hup : ∀ p ∈ ps, ¬ p.LeadsUp) (h : m ∈ reach t ps l) :
    l <+: m := by
  induction hn : ps.length using Nat.strongRecOn generalizing ps l with
  | ind n ih =>
      cases ps with
      | nil => exact List.mem_singleton.1 h ▸ List.prefix_refl l
      | cons p ps =>
          obtain ⟨rest, k, hrest, hstep, hm⟩ := exists_step_of_mem_reach h
          have hlt : rest.length < n := by
            have hle := hrest.length_le
            rw [← hn, List.length_cons]
            omega
          have hup' : ∀ q ∈ rest, ¬ q.LeadsUp := fun q hq =>
            hup q (List.mem_cons_of_mem p (hrest.subset hq))
          exact (hstep (hup p List.mem_cons_self)).trans (ih _ hlt hup' hm rfl)

end Glob

end CodeSpan
