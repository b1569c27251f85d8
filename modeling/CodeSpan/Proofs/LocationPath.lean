import CodeSpan.Path
import CodeSpan.Proofs.GlobReach
import CodeSpan.Proofs.Segment
import Mathlib.Data.List.Induction
import Mathlib.Data.List.Nodup

/-!
# Paths of locations

Every location of a tree has only directories above it and proper names on the way. Its path is
parted into exactly these names, so following the path leads back to the location. A relative path
behind the path of a directory is followed from that directory.
-/

namespace CodeSpan

namespace Tree

variable {t : Tree} {l dir current : Location} {e : Entry} {name : List Char}
  {names rest : List (List Char)} {base s : Path}

theorem mem_of_entryAt?_eq_some (hne : l ≠ []) (h : t.entryAt? l = some e) :
    (l, e) ∈ t.entries := by
  rw [entryAt?, if_neg hne] at h
  obtain ⟨⟨m, e'⟩, hfind, rfl⟩ := Option.map_eq_some_iff.1 h
  have hm : m = l := by simpa using List.find?_some hfind
  exact hm ▸ List.mem_of_find?_eq_some hfind

theorem entryAt?_of_mem (h : (l, e) ∈ t.entries) : t.entryAt? l = some e := by
  rw [entryAt?, if_neg (t.rooted _ h).1]
  cases hfind : t.entries.find? (·.1 = l) with
  | none => exact absurd (by simp) (List.find?_eq_none.1 hfind _ h)
  | some x =>
      have hx : x.1 = l := by simpa using List.find?_some hfind
      have heq : x = (l, e) :=
        List.inj_on_of_nodup_map t.distinct (List.mem_of_find?_eq_some hfind) h hx
      rw [heq]
      rfl

theorem isDirectory_iff : t.isDirectory l = true ↔ t.entryAt? l = some .directory := by
  unfold isDirectory
  split <;> simp_all

theorem isFile_iff : t.isFile l = true ↔ ∃ content, t.entryAt? l = some (.file content) := by
  unfold isFile
  split <;> simp_all

theorem isSome_entryAt?_of_isFile (h : t.isFile l = true) : (t.entryAt? l).isSome = true := by
  obtain ⟨content, hcontent⟩ := isFile_iff.1 h
  rw [hcontent]
  rfl

theorem proper_of_entryAt?_isSome (h : (t.entryAt? l).isSome = true) : ∀ n ∈ l, ProperName n := by
  intro n hn
  obtain ⟨e, he⟩ := Option.isSome_iff_exists.1 h
  exact t.proper _ (mem_of_entryAt?_eq_some (List.ne_nil_of_mem hn) he) n hn

theorem isDirectory_dropLast (h : (t.entryAt? l).isSome = true) :
    t.isDirectory l.dropLast = true := by
  by_cases hne : l = []
  · subst hne
    rfl
  · obtain ⟨e, he⟩ := Option.isSome_iff_exists.1 h
    rcases (t.rooted _ (mem_of_entryAt?_eq_some hne he)).2 with hroot | hmem
    · rw [hroot]
      rfl
    · exact isDirectory_iff.2 (entryAt?_of_mem hmem)

/-- What something lies below is a directory. -/
theorem isDirectory_above (h : (t.entryAt? (l ++ rest)).isSome = true) (hne : rest ≠ []) :
    t.isDirectory l = true := by
  induction rest using List.reverseRecOn with
  | nil => exact absurd rfl hne
  | append_singleton init n ih =>
      have hinit : t.isDirectory (l ++ init) = true := by
        have hdrop := isDirectory_dropLast h
        rwa [← List.append_assoc, List.dropLast_concat] at hdrop
      by_cases hnil : init = []
      · rwa [hnil, List.append_nil] at hinit
      · exact ih (entryAt?_isSome_of_isDirectory hinit) hnil

theorem beside_of_proper (h : ProperName name) (l : Location) : beside l name = l ++ [name] := by
  obtain ⟨hne, -, hdot, hdots⟩ := h
  rw [beside, if_neg (not_or.2 ⟨hne, hdot⟩), if_neg hdots]

/-- Names lead to what they name. -/
theorem follow?_names (h : (t.entryAt? (l ++ names)).isSome = true) :
    t.follow? l names = some (l ++ names) := by
  induction names generalizing l with
  | nil =>
      rw [List.append_nil] at h ⊢
      exact if_pos h
  | cons n names ih =>
      have hdir := isDirectory_above h (List.cons_ne_nil n names)
      have hn := proper_of_entryAt?_isSome h n (List.mem_append_right l List.mem_cons_self)
      have hsplit : l ++ n :: names = l ++ [n] ++ names := List.append_cons l n names
      rw [follow?_cons, if_pos hdir, beside_of_proper hn, hsplit]
      exact ih (hsplit ▸ h)

end Tree

theorem ProperName.piece {n : List Char} (h : ProperName n) : n ≠ [] ∧ '/' ∉ n :=
  ⟨h.1, h.2.1⟩

theorem Location.splitOn_intercalate {l : Location} (hne : l ≠ []) (h : ∀ n ∈ l, ProperName n) :
    List.splitOn '/' (List.intercalate ['/'] l) = l :=
  List.splitOn_intercalate '/' (fun n hn => (h n hn).piece.2) hne

namespace Path

variable {base s : Path}

theorem join_of_isAbsolute (h : isAbsolute s = true) (base : Path) : join base s = s := by
  rw [join, if_pos (by rw [h]; rfl)]

/-- A path that is made of names is relative. -/
theorem isAbsolute_intercalate {pieces : List (List Char)}
    (h : ∀ piece ∈ pieces, piece ≠ [] ∧ '/' ∉ piece) :
    isAbsolute (List.intercalate ['/'] pieces) = false := by
  cases pieces with
  | nil => simp [isAbsolute]
  | cons piece pieces =>
      obtain ⟨hne, hsep⟩ := h piece List.mem_cons_self
      obtain ⟨c, piece, rfl⟩ := List.exists_cons_of_ne_nil hne
      have hc : c ≠ '/' := fun heq => hsep (heq ▸ List.mem_cons_self)
      cases pieces <;> simpa [isAbsolute] using hc

theorem isAbsolute_join (hne : base ≠ []) (hrel : isAbsolute s = false) :
    isAbsolute (join base s) = isAbsolute base := by
  obtain ⟨c, b, rfl⟩ := List.exists_cons_of_ne_nil hne
  have hkept : (isAbsolute s || (c :: b).isEmpty) = false := by rw [hrel]; rfl
  rw [join, if_neg (by rw [hkept]; exact Bool.false_ne_true)]
  split_ifs <;> rfl

theorem join_of_relative (hne : base ≠ []) (hrel : isAbsolute s = false) :
    join base s = if base.getLast? = some '/' then base ++ s else base ++ '/' :: s := by
  have hempty : base.isEmpty = false := by simpa using hne
  rw [join, hrel, hempty]
  by_cases hlast : base.getLast? = some '/' <;> simp [hlast]

end Path

namespace Tree

variable {t : Tree} {l dir current : Location} {base s : Path}

theorem resolve?_of_ne_nil (hne : base ≠ []) :
    t.resolve? current base =
      t.follow? (if Path.isAbsolute base then [] else current) (List.splitOn '/' base) := by
  have hempty : base.isEmpty = false := by simpa using hne
  rw [resolve?, hempty]
  rfl

/-- The path of a location leads there from anywhere. -/
theorem resolve?_path (h : (t.entryAt? l).isSome = true) (current : Location) :
    t.resolve? current l.path = some l := by
  change t.follow? [] ([] :: List.splitOn '/' (List.intercalate ['/'] l)) = some l
  rw [follow?_cons, if_pos (show t.isDirectory [] = true from rfl)]
  change t.follow? [] (List.splitOn '/' (List.intercalate ['/'] l)) = some l
  by_cases hne : l = []
  · subst hne
    rfl
  · rw [Location.splitOn_intercalate hne (proper_of_entryAt?_isSome h)]
    exact follow?_names h

/-- An empty piece stays where it is. -/
theorem follow?_nil_piece (h : t.follow? l [[]] = some dir) : dir = l := by
  rw [follow?_cons] at h
  split_ifs at h
  rw [beside, if_pos (Or.inl rfl), follow?] at h
  split_ifs at h
  exact (Option.some.inj h).symm

/-- A relative path behind the path of a directory is followed from that directory. -/
theorem resolve?_join (hrel : Path.isAbsolute s = false)
    (hdir : t.resolve? current base = some dir) :
    t.resolve? current (Path.join base s) = t.follow? dir (List.splitOn '/' s) := by
  have hne : base ≠ [] := by
    rintro rfl
    cases hdir
  have hjoin : Path.join base s ≠ [] := by
    rw [Path.join_of_relative hne hrel]
    split_ifs
    · exact List.append_ne_nil_of_left_ne_nil hne s
    · simp
  rw [resolve?_of_ne_nil hne] at hdir
  rw [resolve?_of_ne_nil hjoin, Path.isAbsolute_join hne hrel, Path.join_of_relative hne hrel]
  generalize (if Path.isAbsolute base then [] else current) = start at hdir ⊢
  by_cases hlast : base.getLast? = some '/'
  · obtain ⟨b, rfl⟩ := List.getLast?_eq_some_iff.1 hlast
    rw [List.splitOn_append_cons_self, follow?_append] at hdir
    obtain ⟨m, hm, hstay⟩ := Option.bind_eq_some_iff.1 hdir
    rw [if_pos hlast, List.append_assoc, List.singleton_append, List.splitOn_append_cons_self,
      follow?_append, hm, follow?_nil_piece hstay]
    rfl
  · rw [if_neg hlast, List.splitOn_append_cons_self, follow?_append, hdir]
    rfl

end Tree

end CodeSpan
