import CodeSpan.Proofs.FileLookup

/-!
# Displayed paths

A found file is shown by the path that leads to it from the working directory, found by comparing
its own path with the text of that directory. Behind the working directory the displayed path
leads to the file again, for every spelling that does not leave the way to the file by a name and
step up later. With such a spelling it leads too high, unless the two ways part at the root.
-/

namespace CodeSpan

namespace Path

variable {base : Path} {l : Location}

/-- The path leaves the way to a location by a name, below the root, and steps up after that. -/
def Strays (base : Path) (l : Location) : Prop :=
  isAbsolute base = true ∧ ∃ (common rest : Location) (n : List Char) (tail : List Component),
    common ≠ [] ∧ l = common ++ rest ∧ rest.head? ≠ some n ∧
      components base = .root :: (common.map .name ++ .name n :: tail) ∧ .up ∈ tail

/-- The names that a location and the start of a path have in common. -/
theorem exists_parting (l : Location) (cs : List Component) :
    ∃ (common rest : Location) (tail : List Component), l = common ++ rest ∧
      cs = common.map .name ++ tail ∧ ∀ n, rest.head? = some n → tail.head? ≠ some (.name n) := by
  induction l generalizing cs with
  | nil => exact ⟨[], [], cs, rfl, rfl, by simp⟩
  | cons n l ih =>
      by_cases h : cs.head? = some (.name n)
      · obtain ⟨cs, rfl⟩ := List.head?_eq_some_iff.1 h
        obtain ⟨common, rest, tail, rfl, rfl, hpart⟩ := ih cs
        exact ⟨n :: common, rest, tail, rfl, rfl, hpart⟩
      · refine ⟨[], n :: l, cs, rfl, rfl, ?_⟩
        rintro m hm
        cases hm
        exact h

end Path

namespace Tree

variable {t : Tree} {current dir common : Location} {base : Path} {cs : List Path.Component}

theorem isDirectory_of_components (habs : Path.isAbsolute base = true)
    (hdir : t.resolve? current base = some dir) (hisdir : t.isDirectory dir = true)
    (hbase : Path.components base = .root :: (common.map .name ++ cs)) :
    t.isDirectory common = true := by
  have hne : base ≠ [] := by
    rintro rfl
    cases hdir
  rw [Path.components_of_isAbsolute habs] at hbase
  rw [resolve?_of_ne_nil hne, if_pos habs] at hdir
  obtain ⟨first, second, hsplit, hfirst, -⟩ :=
    List.filterMap_eq_append_iff.1 (List.cons.inj hbase).2
  rw [hsplit, follow?_append] at hdir
  obtain ⟨m, hm, hrest⟩ := Option.bind_eq_some_iff.1 hdir
  have hcommon : m = common := by
    rw [eq_foldl_move_of_follow? hm, hfirst, Location.foldl_move_names, List.nil_append]
  cases second with
  | nil =>
      rw [follow?] at hrest
      split_ifs at hrest
      cases hrest
      exact hcommon ▸ hisdir
  | cons piece second =>
      rw [follow?_cons] at hrest
      split_ifs at hrest with hm'
      exact hcommon ▸ hm'

end Tree

namespace Workspace

variable {w : Workspace} {input : List Char} {files : List FoundFile} {f : FoundFile}
  {dir l common rest : Location} {n : List Char} {tail : List Path.Component}

theorem isFile_of_lookupFragment {s : List Char} (h : w.lookupFragment s = .found files)
    (hf : f ∈ files) : ∃ l, w.tree.isFile l = true ∧ f = w.foundFile l := by
  unfold lookupFragment at h
  split at h
  · split_ifs at h
  · next rest hone =>
      cases h
      obtain ⟨dir, hdir, hfile, -⟩ := mem_filesContaining.1 (hone ▸ List.mem_singleton_self rest)
      rw [hdir] at hf
      exact ⟨dir ++ rest, hfile, List.mem_singleton.1 hf⟩
  · cases h

theorem exists_isFile_of_lookup (h : w.lookup input = .found files) (hf : f ∈ files) :
    ∃ l, w.tree.isFile l = true ∧ f = w.foundFile l := by
  cases hdirect : w.resolve? (Path.join w.directory (stripFileUri input)) with
  | some l =>
      rw [lookup] at h
      simp only [hdirect] at h
      split_ifs at h with hfile
      · cases h
        exact ⟨l, hfile, List.mem_singleton.1 hf⟩
      · cases h
        obtain ⟨rest, hrest, rfl⟩ := List.mem_map.1 (List.mem_mergeSort.1 hf)
        exact ⟨l ++ rest, Tree.mem_filesFrom_iff.1 hrest, rfl⟩
  | none =>
      cases hglob : Glob.hasWildcard (stripFileUri input) with
      | true =>
          obtain ⟨ls, hls, rfl⟩ := exists_files_of_lookup hglob hdirect h
          obtain ⟨l, hl, rfl⟩ := List.mem_map.1 hf
          obtain ⟨-, -, -, hfile⟩ := Glob.exists_parts_of_mem_files hls hl
          exact ⟨l, hfile, rfl⟩
      | false => exact isFile_of_lookupFragment (lookup_of_fragment hdirect hglob ▸ h) hf

/-- Behind the working directory a displayed path of steps up and names leads up first. -/
theorem resolve?_join_steps (k : Nat) (hdir : w.resolve? w.directory = some dir)
    (hisdir : w.tree.isDirectory dir = true) (hne : rest ≠ []) (hrest : ∀ n ∈ rest, ProperName n) :
    w.resolve? (Path.join w.directory
        (List.intercalate ['/'] (List.replicate k ['.', '.'] ++ rest))) =
      w.tree.follow? (dir.take (dir.length - k)) rest := by
  have hpieces : ∀ piece ∈ List.replicate k ['.', '.'] ++ rest, piece ≠ [] ∧ '/' ∉ piece := by
    intro piece hpiece
    rcases List.mem_append.1 hpiece with hup | hname
    · rw [List.eq_of_mem_replicate hup]
      decide
    · exact (hrest piece hname).piece
  have hsplit : List.splitOn '/' (List.intercalate ['/'] (List.replicate k ['.', '.'] ++ rest)) =
      List.replicate k ['.', '.'] ++ rest :=
    List.splitOn_intercalate '/' (fun p hp => (hpieces p hp).2)
      (List.append_ne_nil_of_right_ne_nil _ hne)
  rw [resolve?, Tree.resolve?_join (Path.isAbsolute_intercalate hpieces) hdir, hsplit,
    Tree.follow?_ups hisdir]

theorem resolve?_display_own (hfile : w.tree.isFile l = true)
    (h : (w.foundFile l).display = l.path) :
    w.resolve? (Path.join w.directory (w.foundFile l).display) = some l := by
  rw [h, Path.join_of_isAbsolute rfl]
  exact Tree.resolve?_path (Tree.isSome_entryAt?_of_isFile hfile) w.current

section Absolute

variable (habs : Path.isAbsolute w.directory = true) (hdir : w.resolve? w.directory = some dir)
  (hisdir : w.tree.isDirectory dir = true)

include habs hdir

theorem dir_of_components {cs : List Path.Component}
    (hbase : Path.components w.directory = .root :: cs) : dir = cs.foldl Location.move [] := by
  have hne : w.directory ≠ [] := by
    intro hnil
    rw [hnil] at hdir
    cases hdir
  rw [Path.components_of_isAbsolute habs] at hbase
  rw [resolve?, Tree.resolve?_of_ne_nil hne, if_pos habs] at hdir
  rw [Tree.eq_foldl_move_of_follow? hdir, (List.cons.inj hbase).2]

include hisdir

theorem ne_nil_of_isFile {cs : List Path.Component}
    (hfile : w.tree.isFile (common ++ rest) = true)
    (hbase : Path.components w.directory = .root :: (common.map .name ++ cs)) : rest ≠ [] := by
  rintro rfl
  have hcommon := Tree.isDirectory_of_components habs hdir hisdir hbase
  rw [List.append_nil, Tree.isFile_eq_false_of_isDirectory hcommon] at hfile
  cases hfile

theorem resolve?_display_below (hfile : w.tree.isFile (common ++ rest) = true)
    (hbase : Path.components w.directory = .root :: (common.map .name ++ [])) :
    w.resolve? (Path.join w.directory (w.foundFile (common ++ rest)).display) =
      some (common ++ rest) := by
  have hentry := Tree.isSome_entryAt?_of_isFile hfile
  have hproper := Tree.proper_of_entryAt?_isSome hentry
  have hrest : ∀ n ∈ rest, ProperName n := fun n hn => hproper n (List.mem_append_right common hn)
  have hne := ne_nil_of_isFile habs hdir hisdir hfile hbase
  have hdepth := dir_of_components habs hdir hbase
  rw [List.append_nil, Location.foldl_move_names, List.nil_append] at hdepth
  have hdisplay : (w.foundFile (common ++ rest)).display =
      List.intercalate ['/'] (List.replicate 0 ['.', '.'] ++ rest) := by
    rw [foundFile, Path.relative?_eq hbase habs hproper, Path.stepsFrom?_nil]
    exact Path.ofComponents_steps 0 hrest
  rw [hdisplay, resolve?_join_steps 0 hdir hisdir hne hrest, Nat.sub_zero, List.take_length, hdepth]
  exact Tree.follow?_names hentry

theorem resolve?_display_beside (hfile : w.tree.isFile (common ++ rest) = true)
    (hpart : rest.head? ≠ some n)
    (hbase : Path.components w.directory = .root :: (common.map .name ++ .name n :: tail)) :
    w.resolve? (Path.join w.directory (w.foundFile (common ++ rest)).display) =
      w.tree.follow? (dir.take (dir.length - (tail.length + 1))) rest := by
  have hproper := Tree.proper_of_entryAt?_isSome (Tree.isSome_entryAt?_of_isFile hfile)
  have hrest : ∀ n ∈ rest, ProperName n := fun n hn => hproper n (List.mem_append_right common hn)
  have hne := ne_nil_of_isFile habs hdir hisdir hfile hbase
  obtain ⟨m, more, rfl⟩ := List.exists_cons_of_ne_nil hne
  have hother : Path.Component.name m ≠ .name n := by simpa using hpart
  have hdisplay : (w.foundFile (common ++ m :: more)).display =
      List.intercalate ['/'] (List.replicate (tail.length + 1) ['.', '.'] ++ m :: more) := by
    rw [foundFile, Path.relative?_eq hbase habs hproper, List.map_cons, Path.stepsFrom?_name hother]
    exact Path.ofComponents_steps (tail.length + 1) hrest
  rw [hdisplay]
  exact resolve?_join_steps (tail.length + 1) hdir hisdir hne hrest

theorem resolve?_display_up (hfile : w.tree.isFile (common ++ rest) = true)
    (hbase : Path.components w.directory = .root :: (common.map .name ++ .up :: tail)) :
    w.resolve? (Path.join w.directory (w.foundFile (common ++ rest)).display) =
      some (common ++ rest) := by
  have hproper := Tree.proper_of_entryAt?_isSome (Tree.isSome_entryAt?_of_isFile hfile)
  obtain ⟨m, more, rfl⟩ :=
    List.exists_cons_of_ne_nil (ne_nil_of_isFile habs hdir hisdir hfile hbase)
  apply resolve?_display_own hfile
  rw [foundFile, Path.relative?_eq hbase habs hproper, List.map_cons, Path.stepsFrom?_up (by simp)]
  rfl

theorem resolve?_display_root (hfile : w.tree.isFile rest = true) (hpart : rest.head? ≠ some n)
    (hbase : Path.components w.directory = .root :: .name n :: tail) :
    w.resolve? (Path.join w.directory (w.foundFile rest).display) = some rest := by
  have hdepth := dir_of_components habs hdir hbase
  rw [List.foldl_cons, Location.move, List.nil_append] at hdepth
  rw [← List.nil_append rest] at hfile
  have hdisplay := resolve?_display_beside habs hdir hisdir hfile hpart hbase
  rw [List.nil_append] at hdisplay hfile
  rw [hdisplay, hdepth, Location.take_foldl_move_root]
  exact Tree.follow?_names (l := []) (Tree.isSome_entryAt?_of_isFile hfile)

theorem resolve?_display_names {names : Location} (hfile : w.tree.isFile (common ++ rest) = true)
    (hpart : rest.head? ≠ some n)
    (hbase : Path.components w.directory =
      .root :: (common.map .name ++ .name n :: names.map .name)) :
    w.resolve? (Path.join w.directory (w.foundFile (common ++ rest)).display) =
      some (common ++ rest) := by
  have hdepth := dir_of_components habs hdir hbase
  rw [List.foldl_append, Location.foldl_move_names, List.nil_append, List.foldl_cons,
    Location.move] at hdepth
  rw [resolve?_display_beside habs hdir hisdir hfile hpart hbase, hdepth, List.length_map,
    Location.take_foldl_move_names]
  exact Tree.follow?_names (Tree.isSome_entryAt?_of_isFile hfile)

end Absolute

section Spelling

variable (hdir : w.resolve? w.directory = some dir) (hisdir : w.tree.isDirectory dir = true)
  (hfile : w.tree.isFile l = true)

include hdir hisdir hfile

/-- From a working directory that strays, the displayed path leads too high. -/
theorem resolve?_display_of_strays (h : Path.Strays w.directory l) :
    w.resolve? (Path.join w.directory (w.foundFile l).display) ≠ some l := by
  obtain ⟨habs, common, rest, n, tail, hne, rfl, hpart, hbase, hup⟩ := h
  rw [resolve?_display_beside habs hdir hisdir hfile hpart hbase]
  intro hfollow
  have hproper := Tree.proper_of_entryAt?_isSome (Tree.isSome_entryAt?_of_isFile hfile)
  have hrest : ∀ n ∈ rest, ProperName n := fun n hn => hproper n (List.mem_append_right common hn)
  have hreached := Tree.eq_foldl_move_of_follow? hfollow
  rw [Path.filterMap_ofPiece?_of_proper hrest, Location.foldl_move_names] at hreached
  have hlength := congrArg List.length (List.append_cancel_right hreached)
  have hdepth : dir.length < common.length + 1 + tail.length := by
    have hlt := Location.length_foldl_move_lt (l := common ++ [n]) hup
    rw [List.length_append, List.length_singleton] at hlt
    rw [dir_of_components habs hdir hbase, List.foldl_append, Location.foldl_move_names]
    exact hlt
  have hpos := List.length_pos_of_ne_nil hne
  rw [List.length_take] at hlength
  omega

theorem resolve?_display_of_not_strays (h : ¬ Path.Strays w.directory l) :
    w.resolve? (Path.join w.directory (w.foundFile l).display) = some l := by
  cases habs : Path.isAbsolute w.directory with
  | false =>
      have hpath : Path.isAbsolute l.path = true := rfl
      apply resolve?_display_own hfile
      rw [foundFile, Path.relative?, habs, hpath]
      rfl
  | true =>
      have hbase := Path.components_of_isAbsolute habs
      obtain ⟨common, rest, tail, rfl, hparts, hpart⟩ :=
        Path.exists_parting l ((List.splitOn '/' w.directory).filterMap Path.Component.ofPiece?)
      have hkind : ∀ c ∈ tail, c = .up ∨ ∃ n, c = .name n := by
        intro c hc
        have hmem := hparts ▸ List.mem_append_right (common.map Path.Component.name) hc
        obtain ⟨piece, -, hpiece⟩ := List.mem_filterMap.1 hmem
        exact (Path.Component.ofPiece?_cases hpiece).imp And.right fun hname => ⟨piece, hname⟩
      rw [hparts] at hbase
      -- the working directory ends, steps up or goes on by another name where the ways part
      cases tail with
      | nil => exact resolve?_display_below habs hdir hisdir hfile hbase
      | cons c tail =>
          rcases hkind c List.mem_cons_self with rfl | ⟨n, rfl⟩
          · exact resolve?_display_up habs hdir hisdir hfile hbase
          have hother : rest.head? ≠ some n := fun hhead => hpart n hhead rfl
          by_cases hroot : common = []
          · subst hroot
            exact resolve?_display_root habs hdir hisdir hfile hother hbase
          have hnames : ∀ c ∈ tail, c ∈ Set.range Path.Component.name := by
            intro c hc
            rcases hkind c (List.mem_cons_of_mem _ hc) with rfl | ⟨m, rfl⟩
            · exact absurd ⟨habs, common, rest, n, tail, hroot, rfl, hother, hbase, hc⟩ h
            · exact ⟨m, rfl⟩
          obtain ⟨names, rfl⟩ : tail ∈ Set.range (List.map Path.Component.name) := by
            rw [Set.range_list_map]
            exact hnames
          exact resolve?_display_names habs hdir hisdir hfile hother hbase

end Spelling

end Workspace

theorem Path.not_strays {base : Path}
    (h : isAbsolute base = false ∨ ['.', '.'] ∉ List.splitOn '/' base) (l : Location) :
    ¬ Strays base l := by
  rintro ⟨habs, common, rest, n, tail, -, -, -, hbase, hup⟩
  rcases h with hrel | hdots
  · rw [hrel] at habs
    cases habs
  · rw [components_of_isAbsolute habs] at hbase
    have hmem : .up ∈ (List.splitOn '/' base).filterMap Component.ofPiece? := by
      rw [(List.cons.inj hbase).2]
      simp [hup]
    obtain ⟨piece, hpiece, hup'⟩ := List.mem_filterMap.1 hmem
    rcases Component.ofPiece?_cases hup' with ⟨rfl, -⟩ | hname
    · exact hdots hpiece
    · cases hname

namespace Workspace

/-- Behind the working directory the displayed path of a found file leads to that file, exactly if
the spelling of the working directory does not stray from the way there. A relative spelling never
does, nor does one without a step up. -/
theorem display_leads_to_file (w : Workspace) (input : List Char) (dir : Location)
    (files : List FoundFile) (hdir : w.resolve? w.directory = some dir)
    (hisdir : w.tree.isDirectory dir = true) (h : w.lookup input = .found files) :
    ∀ f ∈ files, w.tree.isFile f.location = true ∧ w.resolve? f.canonical = some f.location ∧
      (w.resolve? (Path.join w.directory f.display) = some f.location ↔
        ¬ Path.Strays w.directory f.location) ∧
      (Path.isAbsolute w.directory = false ∨ ['.', '.'] ∉ List.splitOn '/' w.directory →
        w.resolve? (Path.join w.directory f.display) = some f.location) := by
  intro f hf
  obtain ⟨l, hfile, rfl⟩ := exists_isFile_of_lookup h hf
  have hdenotes := resolve?_display_of_not_strays hdir hisdir hfile
  refine ⟨hfile, ?_, ⟨fun hleads hstrays => ?_, hdenotes⟩, fun hspelling => ?_⟩
  · exact Tree.resolve?_path (Tree.isSome_entryAt?_of_isFile hfile) w.current
  · exact resolve?_display_of_strays hdir hisdir hfile hstrays hleads
  · exact hdenotes (Path.not_strays hspelling l)

theorem display_leads_to_file_above :
    let w := ofTwo ["r", "a", "z.c"] ["r", "b", "x.c"] "/r//b/."
    w.lookup "..".toList = .found
        [⟨"../a/z.c".toList, ["r", "a", "z.c"].map String.toList⟩,
          ⟨"x.c".toList, ["r", "b", "x.c"].map String.toList⟩] ∧
      w.resolve? (Path.join w.directory "../a/z.c".toList) =
        some (["r", "a", "z.c"].map String.toList) ∧
      w.resolve? (Path.join w.directory "x.c".toList) =
        some (["r", "b", "x.c"].map String.toList) := by
  intro w
  have h : (ofTwo ["r", "a", "z.c"] ["r", "b", "x.c"] "/r//b/.").lookup "..".toList = .found
      [⟨"../a/z.c".toList, ["r", "a", "z.c"].map String.toList⟩,
        ⟨"x.c".toList, ["r", "b", "x.c"].map String.toList⟩] := by
    cbv
  have hdir : w.resolve? w.directory = some ["r".toList, "b".toList] := by decide +kernel
  have hfound := display_leads_to_file w "..".toList _ _ hdir (by decide +kernel) h
  have hspelling : ['.', '.'] ∉ List.splitOn '/' w.directory := by decide +kernel
  obtain ⟨-, -, -, hfirst⟩ := hfound _ List.mem_cons_self
  obtain ⟨-, -, -, hsecond⟩ := hfound _ (List.mem_cons_of_mem _ List.mem_cons_self)
  exact ⟨h, hfirst (Or.inr hspelling), hsecond (Or.inr hspelling)⟩

/-- A step up in the spelling of the working directory is counted as one more step up from it. -/
theorem not_display_leads_to_file :
    ¬ ∀ (w : Workspace) (input : List Char) (dir : Location) (files : List FoundFile),
      w.resolve? w.directory = some dir → w.tree.isDirectory dir = true →
      w.lookup input = .found files →
      ∀ f ∈ files, w.resolve? (Path.join w.directory f.display) = some f.location := by
  intro h
  have hfound : (ofTwo ["r", "a", "z.c"] ["r", "b", "x.c"] "/r/a/../b").lookup "x.c".toList =
      .found [⟨"../../../b/x.c".toList, ["r", "b", "x.c"].map String.toList⟩] := by
    cbv
  have hleads := h _ "x.c".toList ["r".toList, "b".toList] _ (by decide +kernel) (by decide +kernel)
    hfound _ List.mem_cons_self
  exact absurd hleads (by decide +kernel)

end Workspace

end CodeSpan
