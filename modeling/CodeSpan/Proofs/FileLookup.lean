import CodeSpan.Proofs.FilesBelow
import CodeSpan.Proofs.GlobBelow
import CodeSpan.Proofs.RelativePath

/-!
# Looking up a file by its path or a part of it

A path that leads to a file finds that file, whatever else its text could mean as a pattern or as
a part of other paths. An input that leads nowhere and is no pattern is compared with the paths of
all files below the working directory: the outcome depends on how many of them contain it.
-/

namespace CodeSpan

variable {rest : Location}

theorem stripFileUri_file (s : List Char) : stripFileUri ("file://".toList ++ s) = s := by
  rw [stripFileUri, Text.stripStart?_eq_some_iff.2 rfl]
  rfl

theorem stripFileUri_path (l : Location) : stripFileUri l.path = l.path := by
  simp [stripFileUri, Location.path, Text.stripStart?]

/-- Proper names never make up the start of a file address, which has an empty piece. -/
theorem stripFileUri_intercalate (h : ∀ n ∈ rest, ProperName n) :
    stripFileUri (List.intercalate ['/'] rest) = List.intercalate ['/'] rest := by
  rw [stripFileUri]
  cases hstrip : Text.stripStart? "file://".toList (List.intercalate ['/'] rest) with
  | none => rfl
  | some s =>
      rw [Text.stripStart?_eq_some_iff] at hstrip
      have htext : List.intercalate ['/'] rest = "file:".toList ++ '/' :: '/' :: s := hstrip
      have hne : rest ≠ [] := by
        rintro rfl
        simp at htext
      have hsplit := Location.splitOn_intercalate hne h
      rw [htext, List.splitOn_append_cons_self] at hsplit
      rw [Text.splitOn_cons_self] at hsplit
      have hmem : [] ∈ rest := hsplit ▸ List.mem_append_right _ List.mem_cons_self
      exact absurd rfl (h [] hmem).1

namespace Workspace

variable {w : Workspace} {input s : List Char} {dir l : Location}

theorem lookupSingle_of_isFile
    (h : w.resolve? (Path.join w.directory (stripFileUri input)) = some l)
    (hfile : w.tree.isFile l = true) : w.lookupSingle input = .found [w.foundFile l] := by
  have hlookup : w.lookup input = .found [w.foundFile l] := by
    rw [lookup]
    simp only [h, hfile, if_true]
  rw [lookupSingle, hlookup]

/-- A file below the working directory is found by its path from there, by its own path and by its
address, and shown by the first, whatever characters these hold. -/
theorem lookupSingle_existing (w : Workspace) (dir rest : Location) (hdir : w.directory = dir.path)
    (hisdir : w.tree.isDirectory dir = true) (hfile : w.tree.isFile (dir ++ rest) = true) :
    ∀ input ∈ [List.intercalate ['/'] rest, Location.path (dir ++ rest),
        "file://".toList ++ Location.path (dir ++ rest)],
      w.lookupSingle input = .found [⟨List.intercalate ['/'] rest, dir ++ rest⟩] := by
  have hentry := Tree.isSome_entryAt?_of_isFile hfile
  have hproper := Tree.proper_of_entryAt?_isSome hentry
  have hrest : ∀ n ∈ rest, ProperName n := fun n hn => hproper n (List.mem_append_right dir hn)
  have hne : rest ≠ [] := by
    rintro rfl
    rw [List.append_nil, Tree.isFile_eq_false_of_isDirectory hisdir] at hfile
    cases hfile
  have hshown : w.foundFile (dir ++ rest) = ⟨List.intercalate ['/'] rest, dir ++ rest⟩ := by
    rw [foundFile, hdir, Path.relative?_below hproper]
    rfl
  have hown : w.resolve? (Path.join w.directory (Location.path (dir ++ rest))) =
      some (dir ++ rest) := by
    rw [Path.join_of_isAbsolute rfl]
    exact Tree.resolve?_path hentry w.current
  intro input hinput
  rw [← hshown]
  refine lookupSingle_of_isFile ?_ hfile
  simp only [List.mem_cons, List.not_mem_nil, or_false] at hinput
  rcases hinput with rfl | rfl | rfl
  · have hbase : w.tree.resolve? w.current dir.path = some dir :=
      Tree.resolve?_path (Tree.entryAt?_isSome_of_isDirectory hisdir) w.current
    rw [stripFileUri_intercalate hrest, hdir, resolve?,
      Tree.resolve?_join (Path.isAbsolute_intercalate fun n hn => (hrest n hn).piece) hbase,
      Location.splitOn_intercalate hne hrest]
    exact Tree.follow?_names hentry
  · rw [stripFileUri_path]
    exact hown
  · rw [stripFileUri_file]
    exact hown

theorem lookupSingle_existing_wildcards :
    let w := ofTwo ["w", "[a]*.c"] ["w", "ab.c"] "/w"
    w.directory = Location.path ["w".toList] ∧ w.tree.isDirectory ["w".toList] = true ∧
      w.tree.isFile ["w".toList, "[a]*.c".toList] = true ∧
      ∀ input ∈ ["[a]*.c", "/w/[a]*.c", "file:///w/[a]*.c"].map String.toList,
        w.lookupSingle input =
          .found [⟨"[a]*.c".toList, ["w".toList, "[a]*.c".toList]⟩] := by
  intro w
  have hdir : w.directory = Location.path ["w".toList] := by decide +kernel
  have hisdir : w.tree.isDirectory ["w".toList] = true := by decide +kernel
  have hfile : w.tree.isFile ["w".toList, "[a]*.c".toList] = true := by decide +kernel
  exact ⟨hdir, hisdir, hfile,
    lookupSingle_existing w ["w".toList] ["[a]*.c".toList] hdir hisdir hfile⟩

/-- What leads from the working directory to a file below it, with a text contained in its path. -/
def Contains (w : Workspace) (s : List Char) (rest : Location) : Prop :=
  ∃ dir, w.resolve? w.directory = some dir ∧ rest ≠ [] ∧ w.tree.isFile (dir ++ rest) = true ∧
    s <:+: List.intercalate ['/'] rest

theorem mem_filesContaining :
    rest ∈ w.filesContaining s ↔ ∃ dir, w.resolve? w.directory = some dir ∧
      w.tree.isFile (dir ++ rest) = true ∧ s <:+: List.intercalate ['/'] rest := by
  unfold filesContaining
  cases w.resolve? w.directory with
  | none => simp
  | some dir => simp [Tree.mem_filesFrom_iff, Text.contains_iff]

theorem mem_filesContaining_iff
    (hisdir : ∀ l, w.resolve? w.directory = some l → w.tree.isDirectory l = true) :
    rest ∈ w.filesContaining s ↔ w.Contains s rest := by
  rw [mem_filesContaining]
  constructor
  · rintro ⟨dir, hdir, hfile, hin⟩
    refine ⟨dir, hdir, ?_, hfile, hin⟩
    rintro rfl
    rw [List.append_nil, Tree.isFile_eq_false_of_isDirectory (hisdir dir hdir)] at hfile
    cases hfile
  · rintro ⟨dir, hdir, -, hfile, hin⟩
    exact ⟨dir, hdir, hfile, hin⟩

theorem sorted_filesContaining (w : Workspace) (s : List Char) :
    (w.filesContaining s).Pairwise Location.Before := by
  unfold filesContaining
  split
  · exact List.Pairwise.nil
  · exact (Tree.sorted_filesFrom _ _).filter _

theorem lookup_of_fragment
    (hnone : w.resolve? (Path.join w.directory (stripFileUri input)) = none)
    (hplain : Glob.hasWildcard (stripFileUri input) = false) :
    w.lookup input = w.lookupFragment (stripFileUri input) := by
  rw [lookup]
  simp only [hnone, hplain, Bool.false_eq_true, if_false]

theorem Contains.proper {s : List Char} (h : w.Contains s rest) :
    rest ≠ [] ∧ ∀ n ∈ rest, ProperName n := by
  obtain ⟨dir, -, hne, hfile, -⟩ := h
  have hproper := Tree.proper_of_entryAt?_isSome (Tree.isSome_entryAt?_of_isFile hfile)
  exact ⟨hne, fun n hn => hproper n (List.mem_append_right dir hn)⟩

/-- An input that leads nowhere and is no pattern finds the one file below the working directory
whose path from there contains it. It is ambiguous if there are more, and then every such path is
listed once and in order; if there is none, an input with a separator is a missing path. -/
theorem lookup_by_fragment (w : Workspace) (input : List Char)
    (hisdir : ∀ l, w.resolve? w.directory = some l → w.tree.isDirectory l = true)
    (hnone : w.resolve? (Path.join w.directory (stripFileUri input)) = none)
    (hplain : Glob.hasWildcard (stripFileUri input) = false) :
    ((∀ rest, ¬ w.Contains (stripFileUri input) rest) →
      w.lookup input =
        if '/' ∈ stripFileUri input then .missing (Path.join w.directory (stripFileUri input))
        else .notFound) ∧
    (∀ dir rest, w.resolve? w.directory = some dir → w.Contains (stripFileUri input) rest →
      (∀ rest', w.Contains (stripFileUri input) rest' → rest' = rest) →
      w.lookup input = .found [w.foundFile (dir ++ rest)]) ∧
    (∀ rest rest', w.Contains (stripFileUri input) rest → w.Contains (stripFileUri input) rest' →
      rest ≠ rest' →
      ∃ rests : List Location, w.lookup input = .ambiguous (rests.map (List.intercalate ['/'])) ∧
        (∀ rest, rest ∈ rests ↔ w.Contains (stripFileUri input) rest) ∧
        rests.Pairwise Location.Before ∧ (rests.map (List.intercalate ['/'])).Nodup) := by
  have hmem : ∀ rest, rest ∈ w.filesContaining (stripFileUri input) ↔
      w.Contains (stripFileUri input) rest := fun _ => mem_filesContaining_iff hisdir
  have hsorted := sorted_filesContaining w (stripFileUri input)
  rw [lookup_of_fragment hnone hplain, lookupFragment]
  generalize w.filesContaining (stripFileUri input) = rests at hmem hsorted ⊢
  have hnodup : rests.Nodup := by
    refine hsorted.imp ?_
    rintro l _ hlt rfl
    exact Location.not_before_self l hlt
  refine ⟨fun hnever => ?_, fun dir rest hdir hrest honly => ?_,
    fun rest rest' hrest hrest' hne => ?_⟩
  · have hnil : rests = [] :=
      List.eq_nil_iff_forall_not_mem.2 fun rest hrest => hnever rest ((hmem rest).1 hrest)
    rw [hnil]
  · have hone : rests = [rest] := by
      refine List.perm_singleton.1
        ((List.perm_ext_iff_of_nodup hnodup (List.nodup_singleton rest)).2 fun rest' => ?_)
      rw [hmem, List.mem_singleton]
      exact ⟨honly rest', fun heq => heq ▸ hrest⟩
    rw [hone, hdir]
    rfl
  · refine ⟨rests, ?_, hmem, hsorted, ?_⟩
    · match rests, (hmem rest).2 hrest, (hmem rest').2 hrest' with
      | [_], hone, hone' =>
          exact absurd ((List.mem_singleton.1 hone).trans (List.mem_singleton.1 hone').symm) hne
      | _ :: _ :: _, _, _ => rfl
    · refine hnodup.map_on fun rest hrest rest' hrest' heq => ?_
      obtain ⟨hne, hproper⟩ := ((hmem rest).1 hrest).proper
      obtain ⟨hne', hproper'⟩ := ((hmem rest').1 hrest').proper
      rw [← Location.splitOn_intercalate hne hproper, heq,
        Location.splitOn_intercalate hne' hproper']

theorem lookup_by_fragment_several :
    let w := ofTwo ["w", "lib", "a.c"] ["w", "c", "libc.c"] "/w/c/.."
    w.resolve? w.directory = some ["w".toList] ∧
      w.resolve? (Path.join w.directory "ib".toList) = none ∧
      ∃ rests : List Location,
        w.lookup "file://ib".toList = .ambiguous (rests.map (List.intercalate ['/'])) ∧
        ["c".toList, "libc.c".toList] ∈ rests ∧ ["lib".toList, "a.c".toList] ∈ rests ∧
        rests.Pairwise Location.Before ∧ (rests.map (List.intercalate ['/'])).Nodup := by
  intro w
  have hdir : w.resolve? w.directory = some ["w".toList] := by decide +kernel
  have hnone : w.resolve? (Path.join w.directory (stripFileUri "file://ib".toList)) = none := by
    decide +kernel
  have hisdir : ∀ l, w.resolve? w.directory = some l → w.tree.isDirectory l = true := by
    intro l hl
    cases hdir.symm.trans hl
    decide +kernel
  have hfirst : w.Contains (stripFileUri "file://ib".toList) ["c".toList, "libc.c".toList] :=
    ⟨_, hdir, by decide, by decide +kernel, Text.contains_iff.1 (by decide)⟩
  have hsecond : w.Contains (stripFileUri "file://ib".toList) ["lib".toList, "a.c".toList] :=
    ⟨_, hdir, by decide, by decide +kernel, Text.contains_iff.1 (by decide)⟩
  obtain ⟨-, -, hseveral⟩ := lookup_by_fragment w "file://ib".toList hisdir hnone (by decide)
  obtain ⟨rests, hlookup, hmem, hsorted, hnodup⟩ := hseveral _ _ hfirst hsecond (by decide)
  exact ⟨hdir, hnone, rests, hlookup, (hmem _).2 hfirst, (hmem _).2 hsecond, hsorted, hnodup⟩

end Workspace

end CodeSpan
