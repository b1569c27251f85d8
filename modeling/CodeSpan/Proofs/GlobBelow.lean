import CodeSpan.Proofs.LocationPath
import CodeSpan.Workspace.Lookup
import Mathlib

/-!
# Glob matches below the working directory

A glob input is looked up as a pattern behind the path of the working directory. The path is not
quoted, so its wildcards are those of the pattern, and the input is matched below every place that
the path matches. A path without wildcards matches the working directory alone: then what is found
lies below it, unless a piece of the input matches the two dots of the directory above.
-/

namespace CodeSpan

namespace Glob

variable {t : Tree} {l dir current : Location} {s base piece : List Char} {ps : List Part}

theorem body_append (hne : base ≠ []) (s : List Char) : body (base ++ s) = body base ++ s := by
  obtain ⟨c, b, rfl⟩ := List.exists_cons_of_ne_nil hne
  unfold body
  rw [List.cons_append, List.head?_cons, List.head?_cons]
  split_ifs <;> rfl

theorem pieces_append_separator (s : List Char) : pieces (s ++ ['/']) = List.splitOn '/' s := by
  have hsplit : List.splitOn '/' (s ++ ['/']) = List.splitOn '/' s ++ [[]] :=
    List.splitOn_append_cons_self s []
  unfold pieces
  dsimp only
  rw [hsplit, if_pos List.getLast?_concat, List.dropLast_concat]

theorem pieces_of_getLast? (hne : s ≠ []) (hlast : s.getLast? ≠ some '/') :
    pieces s = List.splitOn '/' s :=
  if_neg (Text.getLast?_splitOn_ne hne hlast)

/-- A pattern behind the path of a directory is parted into the pieces of the path and its own. -/
theorem splitOn_body_join (hne : base ≠ []) (hrel : Path.isAbsolute s = false) :
    List.splitOn '/' (body (Path.join base s)) = pieces (body base) ++ List.splitOn '/' s := by
  have hempty : base.isEmpty = false := by simpa using hne
  unfold Path.join
  rw [hrel, hempty]
  by_cases hlast : base.getLast? = some '/'
  · obtain ⟨b, rfl⟩ := List.getLast?_eq_some_iff.1 hlast
    have hjoin : b ++ ['/'] ++ s = b ++ '/' :: s := by simp
    simp only [Bool.or_self, Bool.false_eq_true, if_false, hlast, BEq.rfl, if_true, hjoin]
    by_cases hb : b = []
    · subst hb
      rfl
    · rw [body_append hb, body_append hb, pieces_append_separator, List.splitOn_append_cons_self]
  · have hbeq : (base.getLast? == some '/') = false := by simpa using hlast
    simp only [Bool.or_self, Bool.false_eq_true, if_false, hbeq]
    have hbody : body base ≠ [] ∧ (body base).getLast? ≠ some '/' := by
      obtain ⟨c, b, rfl⟩ := List.exists_cons_of_ne_nil hne
      unfold body
      split_ifs with hc
      · cases hc
        cases b with
        | nil => exact absurd rfl hlast
        | cons d b => exact ⟨List.cons_ne_nil d b, hlast⟩
      · exact ⟨hne, hlast⟩
    rw [body_append hne, List.splitOn_append_cons_self, pieces_of_getLast? hbody.1 hbody.2]

theorem mem_splitOn_of_mem_body (h : piece ∈ List.splitOn '/' (body s)) :
    piece ∈ List.splitOn '/' s := by
  unfold body at h
  split_ifs at h with hhead
  · obtain ⟨b, rfl⟩ := List.head?_eq_some_iff.1 hhead
    exact List.mem_cons_of_mem [] h
  · exact h

theorem follow?_pieces (h : t.follow? l (List.splitOn '/' s) = some dir) :
    t.follow? l (pieces s) = some dir := by
  unfold pieces
  dsimp only
  split_ifs with hlast
  · obtain ⟨init, hinit⟩ := List.getLast?_eq_some_iff.1 hlast
    rw [hinit, Tree.follow?_append] at h
    obtain ⟨m, hm, hstay⟩ := Option.bind_eq_some_iff.1 h
    rw [hinit, List.dropLast_concat, Tree.follow?_nil_piece hstay]
    exact hm
  · exact h

theorem follow?_of_resolve? (hdir : t.resolve? current base = some dir) :
    t.follow? (if Path.isAbsolute base then [] else current) (pieces (body base)) = some dir := by
  unfold Tree.resolve? at hdir
  split at hdir
  · cases hdir
  next hempty =>
  apply follow?_pieces
  obtain ⟨c, b, rfl⟩ := List.exists_cons_of_ne_nil (show base ≠ [] by simpa using hempty)
  by_cases hc : c = '/'
  · subst hc
    change t.follow? [] ([] :: List.splitOn '/' b) = some dir at hdir
    rw [Tree.follow?_cons] at hdir
    split_ifs at hdir
    exact hdir
  · have hbody : body (c :: b) = c :: b := if_neg (by simpa using hc)
    rw [hbody]
    exact hdir

theorem parts_of_join (hne : base ≠ []) (hrel : Path.isAbsolute s = false)
    (h : parts (Path.join base s) = .ok ps) :
    ∃ tss tss', (pieces (body base)).mapM tokens = .ok tss ∧ (pieces s).mapM tokens = .ok tss' ∧
      ps = collapse (tss.map Part.ofTokens ++ tss'.map Part.ofTokens) := by
  obtain ⟨-, -, h⟩ := bind_eq_ok_iff.1 h
  change (do let tss ← (pieces (body (Path.join base s))).mapM tokens
             pure (collapse (tss.map Part.ofTokens))) = Except.ok ps at h
  rw [pieces_of_split (splitOn_body_join hne hrel), List.mapM_append] at h
  obtain ⟨both, hboth, h⟩ := bind_eq_ok_iff.1 h
  obtain ⟨tss, htss, hboth⟩ := bind_eq_ok_iff.1 hboth
  obtain ⟨tss', htss', hsum⟩ := bind_eq_ok_iff.1 hboth
  cases hsum
  cases h
  exact ⟨tss, tss', htss, htss', by rw [List.map_append]⟩

theorem exists_parts_of_mem_files {ls : List Location} {pattern : Path} {l : Location}
    (h : files t current pattern = .ok ls) (hl : l ∈ ls) :
    ∃ ps, parts pattern = .ok ps ∧
      l ∈ reach t ps (if Path.isAbsolute pattern then [] else current) ∧ t.isFile l = true := by
  obtain ⟨ps, hps, h⟩ := bind_eq_ok_iff.1 h
  change (if pattern.getLast? = some '/' then pure [] else _) = Except.ok ls at h
  by_cases hlast : pattern.getLast? = some '/'
  · rw [if_pos hlast] at h
    cases h
    cases hl
  · rw [if_neg hlast] at h
    cases h
    obtain ⟨hreach, hfile⟩ := List.mem_filter.1 hl
    exact ⟨ps, hps, hreach, hfile⟩

end Glob

namespace Workspace

variable {w : Workspace} {input s : List Char} {files : List FoundFile} {dir l : Location}
  {ls : List Location}

/-- The places that the path of the working directory matches as a pattern. -/
def matched (w : Workspace) : List Location :=
  match (Glob.pieces (Glob.body w.directory)).mapM Glob.tokens with
  | .ok tss => Glob.reach w.tree (tss.map Glob.Part.ofTokens)
      (if Path.isAbsolute w.directory then [] else w.current)
  | .error _ => []

theorem matched_plain (hdir : w.resolve? w.directory = some dir)
    (hplain : ∀ c ∈ w.directory, c ∉ Glob.special) : w.matched = [dir] := by
  have hpieces : ∀ piece ∈ Glob.pieces (Glob.body w.directory), ∀ c ∈ piece, c ∉ Glob.special := by
    intro piece hpiece c hc
    have hmem := Glob.mem_splitOn_of_mem_body (Glob.mem_splitOn_of_mem_pieces hpiece)
    exact hplain c ((Text.sublist_of_mem_splitOn hmem).subset hc)
  have hparts : (Glob.pieces (Glob.body w.directory)).map
      (Glob.Part.ofTokens ∘ fun piece => piece.map .char) =
        (Glob.pieces (Glob.body w.directory)).map .literal :=
    List.map_congr_left fun piece _ => Glob.ofTokens_plain piece
  rw [matched, Glob.mapM_tokens_plain hpieces]
  dsimp only
  rw [List.map_map, hparts]
  exact Glob.reach_literals (Glob.follow?_of_resolve? hdir)

/-- What matches a pattern behind the path of the working directory is a file at or below a place
that the path matches. -/
theorem exists_matched_of_mem_files (hne : w.directory ≠ [])
    (hstars : ['*', '*'] ∉ List.splitOn '/' w.directory) (hrel : Path.isAbsolute s = false)
    (hup : ∀ piece ∈ List.splitOn '/' s, Glob.leadsUp piece = false)
    (h : Glob.files w.tree w.current (Path.join w.directory s) = .ok ls) (hl : l ∈ ls) :
    (∃ k ∈ w.matched, k <+: l) ∧ w.tree.isFile l = true := by
  obtain ⟨ps, hps, hreach, hfile⟩ := Glob.exists_parts_of_mem_files h hl
  obtain ⟨tss, tss', htss, htss', rfl⟩ := Glob.parts_of_join hne hrel hps
  have hdepth : .anyDepth ∉ tss.map Glob.Part.ofTokens := by
    intro hmem
    obtain ⟨ts, hts, heq⟩ := List.mem_map.1 hmem
    obtain ⟨piece, hpiece, htokens⟩ := exists_of_mem_mapM htss hts
    have hsplit := Glob.mem_splitOn_of_mem_body (Glob.mem_splitOn_of_mem_pieces hpiece)
    have hne : piece ≠ ['*', '*'] := fun heq => hstars (heq ▸ hsplit)
    exact Glob.anyDepth_ne_ofTokens
      (Glob.anyDepth_notMem_tokens (Text.notMem_of_mem_splitOn hsplit) hne htokens) heq.symm
  rw [Glob.collapse_append hdepth, Glob.reach_append hdepth,
    Path.isAbsolute_join hne hrel] at hreach
  obtain ⟨k, hk, hbelow⟩ := List.mem_flatMap.1 hreach
  refine ⟨⟨k, ?_, Glob.prefix_of_mem_reach (fun p hp => ?_) hbelow⟩, hfile⟩
  · rw [matched, htss]
    exact hk
  · obtain ⟨ts, hts, rfl⟩ := List.mem_map.1 (Glob.mem_of_mem_collapse hp)
    obtain ⟨piece, hpiece, htokens⟩ := exists_of_mem_mapM htss' hts
    exact Glob.not_leadsUp_ofTokens htokens (hup piece (Glob.mem_splitOn_of_mem_pieces hpiece))

theorem exists_files_of_lookup (hglob : Glob.hasWildcard (stripFileUri input) = true)
    (hnone : w.resolve? (Path.join w.directory (stripFileUri input)) = none)
    (h : w.lookup input = .found files) :
    ∃ ls, Glob.files w.tree w.current (Path.join w.directory (stripFileUri input)) = .ok ls ∧
      files = ls.map w.foundFile := by
  have hlookup : w.lookupGlob (Path.join w.directory (stripFileUri input)) = .found files := by
    rw [← h, lookup]
    simp only [hnone, hglob, if_true]
  unfold lookupGlob at hlookup
  split at hlookup
  · cases hlookup
  · cases hlookup
  · next ls _ heq =>
      cases hlookup
      exact ⟨ls, heq, rfl⟩

/-- The files that match a relative glob input lie at or below places that the path of the working
directory matches as a pattern, whatever its characters, and below the working directory itself if
that path holds no wildcards. For this no piece of the input may begin with a dot and match the
name of the directory above. -/
theorem glob_below (w : Workspace) (input : List Char) (dir : Location) (files : List FoundFile)
    (hdir : w.resolve? w.directory = some dir) (hisdir : w.tree.isDirectory dir = true)
    (hrel : Path.isAbsolute (stripFileUri input) = false)
    (hglob : Glob.hasWildcard (stripFileUri input) = true)
    (hnone : w.resolve? (Path.join w.directory (stripFileUri input)) = none)
    (hup : ∀ piece ∈ List.splitOn '/' (stripFileUri input), Glob.leadsUp piece = false)
    (h : w.lookup input = .found files) :
    ((∀ c ∈ w.directory, c ∉ Glob.special) →
      ∀ f ∈ files, ∃ rest, rest ≠ [] ∧ f.location = dir ++ rest) ∧
    (['*', '*'] ∉ List.splitOn '/' w.directory →
      ∀ f ∈ files, ∃ k ∈ w.matched, k <+: f.location) := by
  have hne : w.directory ≠ [] := by
    intro hnil
    rw [hnil] at hdir
    cases hdir
  obtain ⟨ls, hls, rfl⟩ := exists_files_of_lookup hglob hnone h
  constructor
  · intro hplain f hf
    have hstars : ['*', '*'] ∉ List.splitOn '/' w.directory := fun hmem =>
      hplain '*' ((Text.sublist_of_mem_splitOn hmem).subset List.mem_cons_self) (by decide)
    obtain ⟨l, hl, rfl⟩ := List.mem_map.1 hf
    obtain ⟨⟨k, hk, rest, hrest⟩, hfile⟩ := exists_matched_of_mem_files hne hstars hrel hup hls hl
    rw [matched_plain hdir hplain, List.mem_singleton] at hk
    subst hk hrest
    refine ⟨rest, ?_, rfl⟩
    rintro rfl
    rw [List.append_nil, Tree.isFile_eq_false_of_isDirectory hisdir] at hfile
    cases hfile
  · intro hstars f hf
    obtain ⟨l, hl, rfl⟩ := List.mem_map.1 hf
    exact (exists_matched_of_mem_files hne hstars hrel hup hls hl).1

def ofTwo (l k : List String) (directory : String) : Workspace where
  tree := ((Tree.empty.addFile? (l.map String.toList) .empty).bind
    (·.addFile? (k.map String.toList) .empty)).getD .empty
  current := []
  directory := directory.toList

theorem glob_below_star :
    let w := ofTwo ["w", "s", "z.c"] ["a", "s", "z.c"] "/a/../w"
    ∃ files, w.lookup "*/?.c".toList = .found files ∧ files ≠ [] ∧
      (∀ f ∈ files, ∃ rest, rest ≠ [] ∧ f.location = ["w".toList] ++ rest) ∧
      ∀ f ∈ files, ∃ k ∈ w.matched, k <+: f.location := by
  intro w
  have h : (ofTwo ["w", "s", "z.c"] ["a", "s", "z.c"] "/a/../w").lookup "*/?.c".toList = .found
      [(ofTwo ["w", "s", "z.c"] ["a", "s", "z.c"] "/a/../w").foundFile
        ["w".toList, "s".toList, "z.c".toList]] := by
    cbv
  have hplain : ∀ c ∈ w.directory, c ∉ Glob.special := by
    simp [w, ofTwo, Glob.special]
  obtain ⟨hbelow, hmatched⟩ := glob_below w "*/?.c".toList ["w".toList] _ (by decide +kernel)
    (by decide +kernel) (by decide) (by decide) (by decide +kernel) (by decide +kernel) h
  exact ⟨_, h, List.cons_ne_nil _ _, hbelow hplain, hmatched (by decide +kernel)⟩

/-- The path of the working directory is a part of the pattern: with brackets in it, the files of
another directory are returned. -/
theorem not_glob_below :
    ¬ ∀ (w : Workspace) (input : List Char) (dir : Location) (files : List FoundFile),
      w.resolve? w.directory = some dir → w.tree.isDirectory dir = true →
      Path.isAbsolute (stripFileUri input) = false →
      Glob.hasWildcard (stripFileUri input) = true →
      w.resolve? (Path.join w.directory (stripFileUri input)) = none →
      ['.', '.'] ∉ List.splitOn '/' (stripFileUri input) →
      w.lookup input = .found files →
      ∀ f ∈ files, ∃ rest, rest ≠ [] ∧ f.location = dir ++ rest := by
  intro h
  have hfound : (ofTwo ["[ab]", "y.c"] ["a", "x.c"] "/[ab]").lookup "*.c".toList = .found
      [(ofTwo ["[ab]", "y.c"] ["a", "x.c"] "/[ab]").foundFile ["a".toList, "x.c".toList]] := by
    cbv
  obtain ⟨rest, -, hrest⟩ := h _ "*.c".toList ["[ab]".toList] _ (by decide +kernel)
    (by decide +kernel) (by decide) (by decide) (by decide +kernel) (by decide) hfound
    _ List.mem_cons_self
  cases hrest

end Workspace

end CodeSpan
