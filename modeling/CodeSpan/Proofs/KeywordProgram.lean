import CodeSpan.Proofs.KeywordAside

/-!
# Keyword programs made by steps

A program is a definition whose body is made by steps: each opens a block, adds a statement or
closes the innermost block, and some lines that must not count may stand before it. A list of
the open blocks says which block a row closes and in which block a statement stands. From the
row that opens a block, and from every statement in it, extraction ends on the row that closes
that block, whatever follows the program.
-/

namespace CodeSpan.KeywordProgram

inductive Action where
  | openBlock
  | addStatement
  | closeBlock

structure Step where
  aside : Option (Fin asides.length)
  action : Action

/-- What a row does; a block is named by the number of the row that opens it. -/
inductive Mark where
  | aside
  | opening
  | statement (block : Nat)
  | closing (block : Nat)
deriving DecidableEq

structure Row where
  text : List Char
  mark : Mark

def asideRows (depth : Nat) (aside : Option (Fin asides.length)) : List Row :=
  ((aside.map asides.get).getD []).map fun text => ⟨indented depth text, .aside⟩

def openingRow (depth : Nat) : Row :=
  ⟨indented depth "if ready".toList, .opening⟩

def statementRow (depth block : Nat) : Row :=
  ⟨indented depth "count += 1".toList, .statement block⟩

def closingRow (depth block : Nat) : Row :=
  ⟨indented depth "end".toList, .closing block⟩

/-- The row of an action, given the open blocks from the innermost to the outermost. The
outermost block is never closed by a step, which adds a statement instead. -/
def actionRow (blocks : List Nat) (action : Action) : Row :=
  match action, blocks with
  | .openBlock, _ => openingRow blocks.length
  | .closeBlock, block :: _ :: outer => closingRow (outer.length + 1) block
  | _, _ => statementRow blocks.length (blocks.headD 0)

def blocksAfter (blocks : List Nat) (number : Nat) (action : Action) : List Nat :=
  match action, blocks with
  | .openBlock, _ => number :: blocks
  | .closeBlock, _ :: next :: outer => next :: outer
  | _, _ => blocks

def closings : List Nat → List Row
  | [] => []
  | block :: outer => closingRow outer.length block :: closings outer

/-- The rows of some steps and of the ends after them, numbered from `number` on. -/
def rows : List Nat → Nat → List Step → List Row
  | blocks, _, [] => closings blocks
  | blocks, number, step :: steps =>
      let aside := asideRows blocks.length step.aside
      let blocks' := blocksAfter blocks (number + aside.length) step.action
      aside ++ actionRow blocks step.action :: rows blocks' (number + aside.length + 1) steps

def program (steps : List Step) : List Row :=
  ⟨"def outer".toList, .opening⟩ :: rows [0] 1 steps

def source (steps : List Step) (after : List (List Char)) : Source :=
  ⟨(program steps).map (·.text) ++ after⟩

/-- Row `j` is the one row that closes the block that row `i` opens. -/
def ClosedAt (rows : List Row) (i j : Nat) : Prop :=
  ∀ k, rows[k]?.map (·.mark) = some (.closing i) ↔ k = j

/-- What an action does inside a block: it opens a block, ends a block that is not the outermost
one, or adds a statement. -/
theorem action_cases (block number : Nat) (outer : List Nat) (action : Action) :
    (actionRow (block :: outer) action = openingRow (outer.length + 1) ∧
        blocksAfter (block :: outer) number action = number :: block :: outer) ∨
      (outer ≠ [] ∧ actionRow (block :: outer) action = closingRow outer.length block ∧
        blocksAfter (block :: outer) number action = outer) ∨
      (actionRow (block :: outer) action = statementRow (outer.length + 1) block ∧
        blocksAfter (block :: outer) number action = block :: outer) := by
  cases action with
  | openBlock => exact .inl ⟨rfl, rfl⟩
  | addStatement => exact .inr (.inr ⟨rfl, rfl⟩)
  | closeBlock =>
      cases outer with
      | nil => exact .inr (.inr ⟨rfl, rfl⟩)
      | cons next outer => exact .inr (.inl ⟨List.cons_ne_nil _ _, rfl, rfl⟩)

theorem rows_cons (blocks : List Nat) (number : Nat) (step : Step) (steps : List Step) :
    rows blocks number (step :: steps) =
      asideRows blocks.length step.aside ++ actionRow blocks step.action ::
        rows (blocksAfter blocks (number + (asideRows blocks.length step.aside).length) step.action)
          (number + (asideRows blocks.length step.aside).length + 1) steps :=
  rfl

theorem counts_outermost :
    Dialect.keywordBlocks.countOpens "def outer".toList = 1 ∧
      Dialect.keywordBlocks.countCloses "def outer".toList = 0 ∧
      Dialect.keywordBlocks.countOpens "end".toList = 0 ∧
      Dialect.keywordBlocks.countCloses "end".toList = 1 := by
  decide +kernel

theorem starts_outer : Starts Dialect.keyword "def outer".toList :=
  starts_keyword (classify_keyword (by decide) (by decide)) (by decide)
    counts_outermost.1.le counts_outermost.2.1

theorem adds_end : Adds Dialect.keyword.comments Dialect.keywordBlocks "end".toList 0 1 := by
  have hclass : Dialect.keyword.comments.classify .outside "end".toList =
      (.code "end".toList, .outside) :=
    classify_keyword (by decide) (by decide)
  refine ⟨by rw [hclass], ?_, ?_⟩
  · rw [hclass]
    exact counts_outermost.2.2.1
  · rw [hclass]
    exact counts_outermost.2.2.2

def LevelRows (rows : List Row) : Prop :=
  LevelText (rows.map (·.text))

theorem LevelRows.append {first second : List Row} (h : LevelRows first) (h' : LevelRows second) :
    LevelRows (first ++ second) := by
  rw [LevelRows, List.map_append]
  exact Level.append h h'

theorem levelRows_aside (depth : Nat) (aside : Option (Fin asides.length)) :
    LevelRows (asideRows (depth + 1) aside) := by
  cases aside with
  | none => exact Level.nil
  | some which =>
      have htexts : (asideRows (depth + 1) (some which)).map (·.text) =
          (asides.get which).map (indented (depth + 1)) := by
        simp [asideRows]
      rw [LevelRows, htexts]
      exact level_aside (List.get_mem asides which) depth

theorem adds_closingRow (depth block : Nat) :
    Adds Dialect.keyword.comments Dialect.keywordBlocks (closingRow depth block).text 0 1 := by
  cases depth with
  | zero => exact adds_end
  | succ depth => exact text_closing.adds depth

theorem levelRows_statement (depth block : Nat) : LevelRows [statementRow (depth + 1) block] :=
  Level.line (text_statement.adds depth)

theorem levelRows_block {inside : List Row} (h : LevelRows inside) (depth block : Nat) :
    LevelRows (openingRow (depth + 1) :: (inside ++ [closingRow (depth + 1) block])) := by
  have hblock := Level.block (text_opening.adds depth) h (adds_closingRow (depth + 1) block)
  rwa [LevelRows, List.map_cons, List.map_append]

/-- The rows inside a block are followed by the row that closes it. -/
theorem exists_closing (block number : Nat) (outer : List Nat) (steps : List Step) :
    ∃ inside number' steps', rows (block :: outer) number steps =
        inside ++ closingRow outer.length block :: rows outer number' steps' ∧
      LevelRows inside ∧ steps'.length ≤ steps.length ∧ (outer = [] → steps' = []) := by
  induction hlen : steps.length using Nat.strong_induction_on
    generalizing block number outer steps with
  | h length ih =>
    cases steps with
    | nil => exact ⟨[], number, [], rfl, Level.nil, Nat.zero_le _, fun _ => rfl⟩
    | cons step steps =>
        subst hlen
        have haside := levelRows_aside outer.length step.aside
        rw [rows_cons]
        generalize number + (asideRows (block :: outer).length step.aside).length = place
        rcases action_cases block place outer step.action with
          ⟨hrow, hafter⟩ | ⟨hne, hrow, hafter⟩ | ⟨hrow, hafter⟩
        · rw [hrow, hafter]
          -- The new block ends first, then the block around it ends in what is left.
          obtain ⟨inner, n₁, steps₁, hinner, hlevel₁, hlen₁, -⟩ :=
            ih steps.length (Nat.lt_succ_self _) place (place + 1) (block :: outer) steps rfl
          obtain ⟨inside, n₂, steps₂, hinside, hlevel₂, hlen₂, hnil⟩ :=
            ih steps₁.length (Nat.lt_succ_of_le hlen₁) block n₁ outer steps₁ rfl
          refine ⟨_ ++ (openingRow (outer.length + 1) ::
              (inner ++ [closingRow (outer.length + 1) place])) ++ inside, n₂, steps₂, ?_,
            (haside.append (levelRows_block hlevel₁ _ _)).append hlevel₂,
            Nat.le_succ_of_le (hlen₂.trans hlen₁), hnil⟩
          rw [hinner, List.length_cons, hinside]
          simp
        · rw [hrow, hafter]
          exact ⟨_, _, steps, rfl, haside, Nat.le_succ _, fun h => absurd h hne⟩
        · rw [hrow, hafter]
          obtain ⟨inside, n, steps', hinside, hlevel, hlen, hnil⟩ :=
            ih steps.length (Nat.lt_succ_self _) block (place + 1) outer steps rfl
          refine ⟨_ ++ [statementRow (outer.length + 1) block] ++ inside, n, steps', ?_,
            (haside.append (levelRows_statement _ _)).append hlevel, Nat.le_succ_of_le hlen, hnil⟩
          rw [hinside]
          simp

theorem mark_of_mem_asideRows {depth : Nat} {aside : Option (Fin asides.length)} {r : Row}
    (h : r ∈ asideRows depth aside) : r.mark = .aside := by
  obtain ⟨text, -, rfl⟩ := List.mem_map.1 h
  rfl

theorem mark_of_mem_closings {blocks : List Nat} {r : Row} (h : r ∈ closings blocks) :
    ∃ block, r.mark = .closing block := by
  induction blocks with
  | nil => cases h
  | cons block outer ih =>
      rcases List.mem_cons.1 h with rfl | h
      · exact ⟨block, rfl⟩
      · exact ih h

theorem exists_blocksAfter (block number : Nat) (outer : List Nat) (action : Action) :
    ∃ block' outer', blocksAfter (block :: outer) number action = block' :: outer' := by
  rcases action_cases block number outer action with ⟨-, h⟩ | ⟨hne, -, h⟩ | ⟨-, h⟩
  · exact ⟨_, _, h⟩
  · obtain ⟨next, outer', rfl⟩ := List.exists_cons_of_ne_nil hne
    exact ⟨next, outer', h⟩
  · exact ⟨_, _, h⟩

/-- A row that is no aside and closes no block, and the rows after it, are the row of an action
inside some block and the rows of the later steps. -/
theorem exists_drop {block number : Nat} {outer : List Nat} {steps : List Step} {i : Nat} {r : Row}
    (hi : (rows (block :: outer) number steps)[i]? = some r) (haside : r.mark ≠ .aside)
    (hclosing : ∀ b, r.mark ≠ .closing b) :
    ∃ block' outer' action steps', r = actionRow (block' :: outer') action ∧
      (rows (block :: outer) number steps).drop i =
        r :: rows (blocksAfter (block' :: outer') (number + i) action) (number + i + 1) steps' := by
  induction steps generalizing block number outer i with
  | nil =>
      obtain ⟨b, hb⟩ := mark_of_mem_closings (List.mem_of_getElem? hi)
      exact absurd hb (hclosing b)
  | cons step steps ih =>
      rw [rows_cons] at hi ⊢
      rcases Nat.lt_or_ge i (asideRows (block :: outer).length step.aside).length with hlt | hge
      · rw [List.getElem?_append_left hlt] at hi
        exact absurd (mark_of_mem_asideRows (List.mem_of_getElem? hi)) haside
      · obtain ⟨k, rfl⟩ := Nat.exists_eq_add_of_le hge
        rw [List.getElem?_append_right hge, Nat.add_sub_cancel_left] at hi
        rw [List.drop_length_add_append, ← Nat.add_assoc]
        cases k with
        | zero =>
            cases hi
            exact ⟨block, outer, step.action, steps, rfl, rfl⟩
        | succ k =>
            obtain ⟨block', outer', hafter⟩ := exists_blocksAfter block
              (number + (asideRows (block :: outer).length step.aside).length) outer step.action
            rw [List.getElem?_cons_succ, hafter] at hi
            rw [List.drop_succ_cons, hafter, Nat.add_comm k 1, ← Nat.add_assoc _ 1 k]
            exact ih hi

def Mark.closed? : Mark → Option Nat
  | .closing block => some block
  | _ => none

def closed (rows : List Row) : List Nat :=
  rows.filterMap (·.mark.closed?)

theorem closed_append (first second : List Row) :
    closed (first ++ second) = closed first ++ closed second :=
  List.filterMap_append

theorem closed_asideRows (depth : Nat) (aside : Option (Fin asides.length)) :
    closed (asideRows depth aside) = [] := by
  apply List.filterMap_eq_nil_iff.2
  intro r hr
  rw [mark_of_mem_asideRows hr]
  rfl

theorem closed_closings (blocks : List Nat) : closed (closings blocks) = blocks := by
  induction blocks with
  | nil => rfl
  | cons block outer ih => exact congrArg (block :: ·) ih

/-- No block is closed twice, and the rows close the blocks that are open before them and blocks
that they open themselves. -/
theorem closed_rows (block number : Nat) (outer : List Nat) (steps : List Step)
    (hnodup : (block :: outer).Nodup) (hlt : ∀ b ∈ block :: outer, b < number) :
    (closed (rows (block :: outer) number steps)).Nodup ∧
      ∀ b ∈ closed (rows (block :: outer) number steps), b ∈ block :: outer ∨ number ≤ b := by
  induction steps generalizing block number outer with
  | nil =>
      rw [rows, closed_closings]
      exact ⟨hnodup, fun b hb => .inl hb⟩
  | cons step steps ih =>
      rw [rows_cons, closed_append, closed_asideRows, List.nil_append]
      generalize (asideRows (block :: outer).length step.aside).length = size
      have hlater : ∀ b ∈ block :: outer, b < number + size + 1 := by
        intro b hb
        have hless := hlt b hb
        omega
      rcases action_cases block (number + size) outer step.action with
        ⟨hrow, hafter⟩ | ⟨hne, hrow, hafter⟩ | ⟨hrow, hafter⟩
      · -- Rows are numbered upwards, so a new block is none of those around it.
        have hfresh : number + size ∉ block :: outer := fun hmem =>
          absurd (hlt _ hmem) (Nat.not_lt.2 (Nat.le_add_right _ _))
        obtain ⟨hclosed, hfrom⟩ := ih (number + size) (number + size + 1) (block :: outer)
          (List.nodup_cons.2 ⟨hfresh, hnodup⟩)
          (List.forall_mem_cons.2 ⟨Nat.lt_succ_self _, hlater⟩)
        rw [hrow, hafter]
        refine ⟨hclosed, fun b hb => ?_⟩
        rcases hfrom b hb with hb | hb
        · rcases List.mem_cons.1 hb with rfl | hb
          · exact .inr (Nat.le_add_right _ _)
          · exact .inl hb
        · exact .inr (by omega)
      · obtain ⟨next, outer', rfl⟩ := List.exists_cons_of_ne_nil hne
        obtain ⟨hnotin, hrest⟩ := List.nodup_cons.1 hnodup
        obtain ⟨hclosed, hfrom⟩ := ih next (number + size + 1) outer' hrest
          (List.forall_mem_cons.1 hlater).2
        rw [hrow, hafter]
        constructor
        · refine List.nodup_cons.2 ⟨fun hmem => ?_, hclosed⟩
          rcases hfrom block hmem with hmem | hge
          · exact hnotin hmem
          · exact Nat.not_le.2 (hlater block List.mem_cons_self) hge
        · intro b hb
          rcases List.mem_cons.1 hb with rfl | hb
          · exact .inl List.mem_cons_self
          · exact (hfrom b hb).imp (List.mem_cons_of_mem block) (by omega)
      · obtain ⟨hclosed, hfrom⟩ := ih block (number + size + 1) outer hnodup hlater
        rw [hrow, hafter]
        exact ⟨hclosed, fun b hb => (hfrom b hb).imp_right (by omega)⟩

theorem closedAt_of_nodup {rows : List Row} (hnodup : (closed rows).Nodup) {block j : Nat} {r : Row}
    (hj : rows[j]? = some r) (hr : r.mark = .closing block) : ClosedAt rows block j := by
  have hpairwise := List.pairwise_iff_getElem.1 (List.pairwise_filterMap.1 hnodup)
  obtain ⟨hjlt, rfl⟩ := List.getElem?_eq_some_iff.1 hj
  intro k
  constructor
  · intro hk
    obtain ⟨s, hs, hmark⟩ := Option.map_eq_some_iff.1 hk
    obtain ⟨hklt, rfl⟩ := List.getElem?_eq_some_iff.1 hs
    have hk' : rows[k].mark.closed? = some block := by rw [hmark]; rfl
    have hj' : rows[j].mark.closed? = some block := by rw [hr]; rfl
    rcases Nat.lt_trichotomy k j with hlt | heq | hgt
    · exact absurd rfl (hpairwise k j hklt hjlt hlt block hk' block hj')
    · exact heq
    · exact absurd rfl (hpairwise j k hjlt hklt hgt block hj' block hk')
  · rintro rfl
    rw [hj, Option.map_some, hr]

section Run

variable {steps : List Step} {after : List (List Char)} {i block depth : Nat} {r : Row}
  {inside more : List Row}

theorem nodup_closed_program (steps : List Step) : (closed (program steps)).Nodup :=
  (closed_rows 0 1 [] steps (List.nodup_singleton 0) (by simp)).1

/-- Where rows that leave the blocks as they are end with a row that closes a block, extraction
ends on that row, and no other row closes the block. -/
theorem extract_of_drop
    (hdrop : (program steps).drop i = r :: (inside ++ closingRow depth block :: more))
    (hstarts : Starts Dialect.keyword r.text) (hlevel : LevelRows inside) :
    ClosedAt (program steps) block (i + (inside.length + 1)) ∧
      extract (source steps after) i Dialect.keyword =
        some (.ok (.ofLines (source steps after) i (i + (inside.length + 1)) .balanced)) := by
  constructor
  · have hrow : (program steps)[i + (inside.length + 1)]? = some (closingRow depth block) := by
      rw [← List.getElem?_drop, hdrop]
      simp
    exact closedAt_of_nodup (nodup_closed_program steps) hrow rfl
  · have hlines : (source steps after).lines.drop i = r.text :: (inside.map (·.text) ++
        (closingRow depth block).text :: (more.map (·.text) ++ after)) := by
      have hle : i ≤ ((program steps).map (·.text)).length := by
        have hlen := congrArg List.length hdrop
        simp only [List.length_drop, List.length_cons] at hlen
        rw [List.length_map]
        omega
      rw [source, List.drop_append_of_le_length hle, ← List.map_drop, hdrop]
      simp
    have hcloses := closesAt_of_level hstarts hlines hlevel (adds_closingRow depth block)
    rw [List.length_map] at hcloses
    exact extract_of_closesAt hcloses

/-- From row `i`, extraction ends on the row that closes the block. -/
def EndsWith (steps : List Step) (after : List (List Char)) (i block : Nat) : Prop :=
  ∃ j, ClosedAt (program steps) block j ∧
    extract (source steps after) i Dialect.keyword =
      some (.ok (.ofLines (source steps after) i j .balanced))

theorem endsWith_of_rows {outer : List Nat} {number : Nat} {later : List Step}
    (hdrop : (program steps).drop i = r :: rows (block :: outer) number later)
    (hstarts : Starts Dialect.keyword r.text) : EndsWith steps after i block := by
  obtain ⟨inside, number', steps', hrows, hlevel, -⟩ := exists_closing block number outer later
  rw [hrows] at hdrop
  exact ⟨_, extract_of_drop hdrop hstarts hlevel⟩

/-- A row that is no aside and closes no block is the header, opens an inner block or is a
statement, and the rows of the block go on behind it. -/
theorem row_cases (hi : (program steps)[i]? = some r) (haside : r.mark ≠ .aside)
    (hclosing : ∀ b, r.mark ≠ .closing b) :
    Starts Dialect.keyword r.text ∧ ∃ block outer number later,
      (r.mark = .opening ∧ block = i ∨ r.mark = .statement block) ∧
        (program steps).drop i = r :: rows (block :: outer) number later := by
  cases i with
  | zero =>
      cases hi
      exact ⟨starts_outer, 0, [], 1, steps, .inl ⟨rfl, rfl⟩, rfl⟩
  | succ i =>
      obtain ⟨block, outer, action, later, rfl, hdrop⟩ := exists_drop hi haside hclosing
      rcases action_cases block (1 + i) outer action with
        ⟨hrow, hafter⟩ | ⟨-, hrow, -⟩ | ⟨hrow, hafter⟩
      · rw [hrow, hafter, Nat.add_comm 1 i] at hdrop
        rw [hrow]
        exact ⟨text_opening.starts le_rfl (by decide) _, i + 1, block :: outer, _, later,
          .inl ⟨rfl, rfl⟩, hdrop⟩
      · exact absurd (congrArg Row.mark hrow) (hclosing block)
      · rw [hrow, hafter] at hdrop
        rw [hrow]
        exact ⟨text_statement.starts (Nat.zero_le 1) (by decide) _, block, outer, _, later,
          .inr rfl, hdrop⟩

end Run

/-- In a program made by steps, extraction from the header ends on the last row of the program,
from a row that opens a block on the row that closes it, and from a statement on the row that
closes the innermost block around it, whatever lines follow. -/
theorem extract_program (steps : List Step) (after : List (List Char)) :
    (ClosedAt (program steps) 0 ((program steps).length - 1) ∧
      extract (source steps after) 0 Dialect.keyword =
        some (.ok (.ofLines (source steps after) 0 ((program steps).length - 1) .balanced))) ∧
      (∀ i, (program steps)[i]?.map (·.mark) = some .opening → EndsWith steps after i i) ∧
      ∀ i block, (program steps)[i]?.map (·.mark) = some (.statement block) →
        EndsWith steps after i block := by
  refine ⟨?_, ?_, ?_⟩
  · obtain ⟨inside, number, later, hrows, hlevel, -, hlater⟩ := exists_closing 0 1 [] steps
    cases hlater rfl
    have hprogram : program steps = ⟨"def outer".toList, .opening⟩ ::
        (inside ++ [closingRow 0 0]) :=
      congrArg (_ :: ·) hrows
    have hlast : (program steps).length - 1 = 0 + (inside.length + 1) := by
      rw [hprogram]
      simp
    rw [hlast]
    exact extract_of_drop (by rw [List.drop_zero, hprogram]) starts_outer hlevel
  · intro i hi
    obtain ⟨r, hrow, hmark⟩ := Option.map_eq_some_iff.1 hi
    obtain ⟨hstarts, block, outer, number, later, hcase, hdrop⟩ :=
      row_cases hrow (by simp [hmark]) (by simp [hmark])
    rcases hcase with ⟨-, rfl⟩ | hstatement
    · exact endsWith_of_rows hdrop hstarts
    · rw [hmark] at hstatement
      cases hstatement
  · intro i block hi
    obtain ⟨r, hrow, hmark⟩ := Option.map_eq_some_iff.1 hi
    obtain ⟨hstarts, block', outer, number, later, hcase, hdrop⟩ :=
      row_cases hrow (by simp [hmark]) (by simp [hmark])
    rcases hcase with ⟨hopening, -⟩ | hstatement
    · rw [hmark] at hopening
      cases hopening
    · rw [hmark] at hstatement
      cases hstatement
      exact endsWith_of_rows hdrop hstarts

theorem extract_program_member :
    let t : Source := ⟨["def outer", "  def name=(value)", "    @name = value", "  end",
      "  if ready", "    count += 1 # end", "    count += 1", "  end", "end",
      "end"].map String.toList⟩
    extract t 0 Dialect.keyword = some (.ok (.ofLines t 0 8 .balanced)) ∧
      extract t 4 Dialect.keyword =
        some (.ok ⟨4, 7, "  if ready\n    count += 1 # end\n    count += 1\n  end".toList,
          .balanced⟩) ∧
      extract t 6 Dialect.keyword =
        some (.ok ⟨6, 7, "    count += 1\n  end".toList, .balanced⟩) := by
  let steps : List Step :=
    [⟨some ⟨3, by decide⟩, .openBlock⟩, ⟨some ⟨1, by decide⟩, .addStatement⟩]
  obtain ⟨⟨-, houter⟩, hopening, hstatement⟩ := extract_program steps ["end".toList]
  obtain ⟨j, hj, hok⟩ := hopening 4 rfl
  obtain ⟨k, hk, hok'⟩ := hstatement 6 4 rfl
  cases (hj 7).1 rfl
  cases (hk 7).1 rfl
  exact ⟨houter, hok, hok'⟩

end CodeSpan.KeywordProgram
