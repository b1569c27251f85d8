import CodeSpan.Proofs.LocationPath
import Mathlib.Data.List.Lex

/-!
# Files below a location

The files below a location are listed by what leads to them from there. The list holds every file
once, in the order of locations, which compares two of them name by name and two names character
by character.
-/

namespace CodeSpan

instance Text.connected_toNat : IsOrderConnected Char fun c d => c.toNat < d.toNat :=
  ⟨fun _ _ _ h => by omega⟩

instance Text.trichotomous_toNat : Std.Trichotomous fun c d : Char => c.toNat < d.toNat :=
  ⟨fun _ _ h h' => Char.toNat_inj.1 (by omega)⟩

instance Location.connected_before : IsOrderConnected Location Location.Before :=
  inferInstanceAs (IsOrderConnected _ (List.Lex (List.Lex _)))

instance Location.trichotomous_before : Std.Trichotomous Location.Before :=
  inferInstanceAs (Std.Trichotomous (List.Lex (List.Lex _)))

theorem Text.not_before_self (s : List Char) : ¬ Text.Before s s :=
  List.lex_irrefl (fun c => Nat.lt_irrefl c.toNat) s

namespace Location

theorem cons_before_cons_iff {n m : List Char} {l k : Location} :
    Location.Before (n :: l) (m :: k) ↔ Text.Before n m ∨ n = m ∧ l.Before k :=
  List.cons_lex_cons_iff

theorem not_before_self (l : Location) : ¬ l.Before l :=
  List.lex_irrefl Text.not_before_self l

theorem not_before_or (l k : Location) : ¬ l.Before k ∨ ¬ k.Before l :=
  List.not_lex_total (List.not_lex_total fun c d => by omega) l k

/-- Two locations below a third are in the order of what leads to them from there. -/
theorem append_before_append_iff {base l k : Location} :
    (base ++ l).Before (base ++ k) ↔ l.Before k := by
  induction base with
  | nil => rfl
  | cons n base ih =>
      rw [List.cons_append, List.cons_append, cons_before_cons_iff, ih]
      simp [Text.not_before_self]

end Location

namespace Tree

variable {t : Tree} {l m rest : Location}

theorem mem_descendants_iff :
    m ∈ t.descendants l ↔ (t.entryAt? m).isSome = true ∧ ∃ rest, rest ≠ [] ∧ m = l ++ rest := by
  constructor
  · intro h
    obtain ⟨hmem, hrest⟩ := exists_of_mem_descendants h
    obtain ⟨e, he, rfl⟩ := List.mem_map.1 hmem
    exact ⟨by rw [entryAt?_of_mem he]; rfl, hrest⟩
  · rintro ⟨hm, rest, hne, rfl⟩
    obtain ⟨e, he⟩ := Option.isSome_iff_exists.1 hm
    have hmem := mem_of_entryAt?_eq_some (List.append_ne_nil_of_right_ne_nil l hne) he
    have hbelow : l.below? (l ++ rest) = some rest := Location.below?_eq_some_iff.2 rfl
    rw [descendants, List.mem_mergeSort, List.mem_filter, hbelow]
    exact ⟨List.mem_map_of_mem hmem, by simpa using hne⟩

theorem nodup_descendants (t : Tree) (l : Location) : (t.descendants l).Nodup := by
  unfold descendants
  exact ((List.mergeSort_perm _ _).nodup_iff).2 (t.distinct.filter _)

theorem sorted_descendants (t : Tree) (l : Location) :
    (t.descendants l).Pairwise Location.Before := by
  have hsorted := @List.pairwise_mergeSort Location (fun m k => ¬ k.Before m)
    (fun m k j hmk hkj => decide_eq_true (IsOrderConnected.neg_trans (of_decide_eq_true hkj)
      (of_decide_eq_true hmk)))
    (fun m k => by simpa using Location.not_before_or k m)
  refine ((hsorted _).and (nodup_descendants t l)).imp ?_
  rintro m k ⟨hle, hne⟩
  by_contra hlt
  exact hne (Std.Trichotomous.trichotomous m k hlt (of_decide_eq_true hle))

/-- The files from a location on are listed by what leads to them. -/
theorem mem_filesFrom_iff : rest ∈ t.filesFrom l ↔ t.isFile (l ++ rest) = true := by
  unfold filesFrom
  by_cases hfile : t.isFile l = true
  · rw [if_pos hfile, List.mem_singleton]
    constructor
    · rintro rfl
      rwa [List.append_nil]
    · intro hrest
      by_contra hne
      -- a file has nothing below it
      have hdir := isDirectory_above (isSome_entryAt?_of_isFile hrest) hne
      rw [isFile_eq_false_of_isDirectory hdir] at hfile
      cases hfile
  · rw [if_neg hfile, List.mem_filterMap]
    constructor
    · rintro ⟨m, hm, hbelow⟩
      rw [Location.below?_eq_some_iff.1 hbelow] at hm
      exact (List.mem_filter.1 hm).2
    · intro hrest
      have hne : rest ≠ [] := by
        rintro rfl
        rw [List.append_nil] at hrest
        exact hfile hrest
      have hmem := mem_descendants_iff.2 ⟨isSome_entryAt?_of_isFile hrest, rest, hne, rfl⟩
      exact ⟨l ++ rest, List.mem_filter.2 ⟨hmem, hrest⟩, Location.below?_eq_some_iff.2 rfl⟩

/-- Every file is listed once and in order. -/
theorem sorted_filesFrom (t : Tree) (l : Location) :
    (t.filesFrom l).Pairwise Location.Before := by
  unfold filesFrom
  split_ifs
  · exact List.pairwise_singleton _ _
  · refine List.pairwise_filterMap.2 (((sorted_descendants t l).filter _).imp ?_)
    intro m k hmk rest hrest rest' hrest'
    rw [Location.below?_eq_some_iff.1 hrest, Location.below?_eq_some_iff.1 hrest'] at hmk
    exact Location.append_before_append_iff.1 hmk

end Tree

end CodeSpan
