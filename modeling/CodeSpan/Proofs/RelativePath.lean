import CodeSpan.Proofs.LocationPath

/-!
# Following relative paths

A relative path to a location is found by comparing its names with the components of a base. It
steps up once for every component of the base behind the names that both share. Followed from the
place where the base leads, it reaches the location if these components are names; a component
that steps up itself is counted as one more step up, so that the path leads too high.
-/

namespace CodeSpan

namespace Text

variable {sep : Char} {pieces : List (List Char)}

theorem intercalate_ne_nil (hne : pieces ≠ []) (h : ∀ piece ∈ pieces, piece ≠ [] ∧ sep ∉ piece) :
    List.intercalate [sep] pieces ≠ [] := by
  intro hnil
  have hsplit := List.splitOn_intercalate sep (fun p hp => (h p hp).2) hne
  rw [hnil, List.splitOn_nil] at hsplit
  exact (h [] (hsplit ▸ List.mem_singleton_self [])).1 rfl

theorem getLast?_intercalate_ne (h : ∀ piece ∈ pieces, piece ≠ [] ∧ sep ∉ piece) :
    (List.intercalate [sep] pieces).getLast? ≠ some sep := by
  intro hlast
  obtain ⟨s, hs⟩ := List.getLast?_eq_some_iff.1 hlast
  have hne : pieces ≠ [] := by
    rintro rfl
    simp at hs
  have hsplit := List.splitOn_intercalate sep (fun p hp => (h p hp).2) hne
  rw [hs, List.splitOn_append_cons_self] at hsplit
  have hmem : [] ∈ pieces := hsplit ▸ List.mem_append_right _ List.mem_cons_self
  exact (h [] hmem).1 rfl

end Text

namespace Path

variable {base : Path} {l common rest : Location} {c : Component} {cs target steps : List Component}
  {n : List Char}

theorem Component.ofPiece?_of_proper (h : ProperName n) : ofPiece? n = some (.name n) := by
  obtain ⟨hne, -, hdot, hdots⟩ := h
  unfold ofPiece?
  split <;> simp_all

theorem Component.ofPiece?_cases {piece : List Char} (h : ofPiece? piece = some c) :
    piece = ['.', '.'] ∧ c = .up ∨ c = .name piece := by
  unfold ofPiece? at h
  split at h
  · cases h
  · cases h
  · cases h
    exact .inl ⟨rfl, rfl⟩
  · cases h
    exact .inr rfl

theorem filterMap_ofPiece?_of_proper (h : ∀ n ∈ l, ProperName n) :
    l.filterMap Component.ofPiece? = l.map .name := by
  induction l with
  | nil => rfl
  | cons n l ih =>
      rw [List.filterMap_cons, Component.ofPiece?_of_proper (h n List.mem_cons_self),
        ih fun m hm => h m (List.mem_cons_of_mem n hm)]
      rfl

theorem components_of_isAbsolute (h : isAbsolute base = true) :
    components base = .root :: (List.splitOn '/' base).filterMap Component.ofPiece? :=
  if_pos h

theorem components_path (h : ∀ n ∈ l, ProperName n) :
    components l.path = .root :: l.map .name := by
  change Component.root ::
    (List.splitOn '/' (List.intercalate ['/'] l)).filterMap Component.ofPiece? = _
  by_cases hne : l = []
  · subst hne
    rfl
  · rw [Location.splitOn_intercalate hne h, filterMap_ofPiece?_of_proper h]

theorem ofComponents_eq (h : ∀ c ∈ cs, c.text ≠ [] ∧ '/' ∉ c.text) :
    ofComponents cs = List.intercalate ['/'] (cs.map Component.text) := by
  induction cs using List.reverseRecOn with
  | nil => simp [ofComponents]
  | append_singleton cs c ih =>
      have hcs := fun c' hc' => h c' (List.mem_append_left [c] hc')
      have hc := h c (List.mem_append_right cs List.mem_cons_self)
      have hrel : isAbsolute c.text = false := by
        have hpiece : ∀ piece ∈ [c.text], piece ≠ [] ∧ '/' ∉ piece := by simpa using hc
        simpa using isAbsolute_intercalate hpiece
      have hstep : ofComponents (cs ++ [c]) = join (ofComponents cs) c.text := by
        simp [ofComponents]
      rw [hstep, ih hcs, List.map_append, List.map_singleton]
      by_cases hnil : cs = []
      · subst hnil
        simp [join]
      · have hmap : cs.map Component.text ≠ [] := by simpa using hnil
        have htexts : ∀ s ∈ cs.map Component.text, s ≠ [] ∧ '/' ∉ s := by
          intro s hs
          obtain ⟨c', hc', rfl⟩ := List.mem_map.1 hs
          exact hcs c' hc'
        rw [join_of_relative (Text.intercalate_ne_nil hmap htexts) hrel,
          if_neg (Text.getLast?_intercalate_ne htexts),
          Text.intercalate_append hmap (List.cons_ne_nil _ _), List.intercalate_singleton]

theorem stepsFrom?_cons (c : Component) (target base : List Component) :
    stepsFrom? false (c :: target) (c :: base) = stepsFrom? false target base := by
  cases c <;> simp [stepsFrom?]

theorem stepsFrom?_append (common target base : List Component) :
    stepsFrom? false (common ++ target) (common ++ base) = stepsFrom? false target base := by
  induction common with
  | nil => rfl
  | cons c common ih =>
      rw [List.cons_append, List.cons_append, stepsFrom?_cons]
      exact ih

theorem stepsFrom?_nil (stepped : Bool) (target : List Component) :
    stepsFrom? stepped target [] = some target := by
  cases target <;> rfl

theorem stepsFrom?_up (h : c ≠ .up) : stepsFrom? false (c :: target) (.up :: cs) = none := by
  simp [stepsFrom?, h]

/-- From beside the way, one step up for every component. -/
theorem stepsFrom?_name (h : c ≠ .name n) :
    stepsFrom? false (c :: target) (.name n :: cs) =
      some (List.replicate (cs.length + 1) .up ++ c :: target) := by
  simp [stepsFrom?, h, List.replicate_succ]

/-- A relative path is the text of the steps behind the names that are shared. -/
theorem relative?_eq (hbase : components base = .root :: (common.map .name ++ cs))
    (habs : isAbsolute base = true) (hl : ∀ n ∈ common ++ rest, ProperName n) :
    relative? base (Location.path (common ++ rest)) =
      (stepsFrom? false (rest.map .name) cs).map ofComponents := by
  have habs' : isAbsolute (Location.path (common ++ rest)) = true := rfl
  rw [relative?, habs, habs', if_neg (by simp), hbase, components_path hl, stepsFrom?_cons,
    List.map_append, stepsFrom?_append]

theorem ofComponents_steps (k : Nat) (h : ∀ n ∈ rest, ProperName n) :
    ofComponents (List.replicate k .up ++ rest.map .name) =
      List.intercalate ['/'] (List.replicate k ['.', '.'] ++ rest) := by
  have htexts : ∀ c ∈ List.replicate k Component.up ++ rest.map .name,
      c.text ≠ [] ∧ '/' ∉ c.text := by
    intro c hc
    rcases List.mem_append.1 hc with hup | hname
    · rw [List.eq_of_mem_replicate hup]
      decide
    · obtain ⟨n, hn, rfl⟩ := List.mem_map.1 hname
      exact (h n hn).piece
  have hname : Component.text ∘ Component.name = id := rfl
  rw [ofComponents_eq htexts, List.map_append, List.map_replicate, List.map_map, hname, List.map_id]
  rfl

theorem relative?_below {dir : Location} (h : ∀ n ∈ dir ++ rest, ProperName n) :
    relative? dir.path (Location.path (dir ++ rest)) = some (List.intercalate ['/'] rest) := by
  have hdir : components dir.path = .root :: (dir.map .name ++ []) := by
    rw [List.append_nil]
    exact components_path fun n hn => h n (List.mem_append_left rest hn)
  have hrest : ∀ n ∈ rest, ProperName n := fun n hn => h n (List.mem_append_right dir hn)
  rw [relative?_eq hdir rfl h, stepsFrom?_nil, Option.map_some]
  exact congrArg some (ofComponents_steps 0 hrest)

end Path

namespace Location

variable {l : Location} {c : Path.Component} {cs : List Path.Component} {n : List Char}

/-- Where a component leads from a location, whether anything is there or not. -/
def move (l : Location) : Path.Component → Location
  | .root => []
  | .here => l
  | .up => l.dropLast
  | .name n => l ++ [n]

theorem foldl_move_names (l names : Location) : (names.map .name).foldl move l = l ++ names := by
  induction names generalizing l with
  | nil => simp
  | cons n names ih =>
      rw [List.map_cons, List.foldl_cons, ih, move, List.append_assoc, List.singleton_append]

theorem length_move_le (l : Location) (c : Path.Component) : (l.move c).length ≤ l.length + 1 := by
  cases c <;> simp [move]
  omega

theorem length_foldl_move_le (l : Location) (cs : List Path.Component) :
    (cs.foldl move l).length ≤ l.length + cs.length := by
  induction cs generalizing l with
  | nil => exact Nat.le_refl _
  | cons c cs ih =>
      have hstep := length_move_le l c
      have hrest := ih (l.move c)
      rw [List.foldl_cons, List.length_cons]
      omega

/-- A step up leads less deep than the number of steps. -/
theorem length_foldl_move_lt (h : .up ∈ cs) : (cs.foldl move l).length < l.length + cs.length := by
  induction cs generalizing l with
  | nil => cases h
  | cons c cs ih =>
      rw [List.foldl_cons, List.length_cons]
      rcases List.mem_cons.1 h with rfl | h
      · have hrest := length_foldl_move_le (l.move .up) cs
        rw [move, List.length_dropLast] at hrest
        rw [move]
        omega
      · have hstep := length_move_le l c
        have hrest := ih (l := l.move c) h
        omega

theorem take_foldl_move_names (l : Location) (n : List Char) (names : Location) :
    ((names.map .name).foldl move (l ++ [n])).take
        (((names.map .name).foldl move (l ++ [n])).length - (names.length + 1)) = l := by
  rw [foldl_move_names]
  simp

/-- As many steps up as steps were taken from the root lead back to it, whatever these were. -/
theorem take_foldl_move_root (n : List Char) (cs : List Path.Component) :
    (cs.foldl move [n]).take ((cs.foldl move [n]).length - (cs.length + 1)) = [] := by
  have hlength := length_foldl_move_le [n] cs
  rw [Nat.sub_eq_zero_of_le, List.take_zero]
  simpa [Nat.add_comm] using hlength

end Location

namespace Tree

variable {t : Tree} {l m dir : Location} {pieces rest : List (List Char)}

theorem beside_eq_move (l : Location) (piece : List Char) :
    beside l piece = ((Path.Component.ofPiece? piece).map l.move).getD l := by
  unfold Path.Component.ofPiece?
  split
  · rfl
  · rfl
  · rfl
  · next hne hdot hdots => rw [beside, if_neg (not_or.2 ⟨hne, hdot⟩), if_neg hdots]; rfl

/-- Pieces lead where their components lead. -/
theorem eq_foldl_move_of_follow? (h : t.follow? l pieces = some m) :
    m = (pieces.filterMap Path.Component.ofPiece?).foldl Location.move l := by
  induction pieces generalizing l with
  | nil =>
      rw [follow?] at h
      split_ifs at h
      exact (Option.some.inj h).symm
  | cons piece pieces ih =>
      rw [follow?_cons] at h
      split_ifs at h
      rw [ih h, beside_eq_move, List.filterMap_cons]
      cases Path.Component.ofPiece? piece <;> rfl

theorem follow?_ups (h : t.isDirectory l = true) (k : Nat) (rest : List (List Char)) :
    t.follow? l (List.replicate k ['.', '.'] ++ rest) = t.follow? (l.take (l.length - k)) rest := by
  induction k generalizing l with
  | zero => simp
  | succ k ih =>
      have hparent := isDirectory_dropLast (entryAt?_isSome_of_isDirectory h)
      have hup : beside l ['.', '.'] = l.dropLast := rfl
      rw [List.replicate_succ, List.cons_append, follow?_cons, if_pos h, hup, ih hparent,
        List.length_dropLast, List.dropLast_eq_take, List.take_take]
      congr 2
      omega

end Tree

end CodeSpan
