import CodeSpan.Dialect.Kind
import CodeSpan.Proofs.Candidate
import CodeSpan.Proofs.PatternText

/-!
# Lines that define a name

The pattern for the definitions of a name can always be read, whatever characters the keywords and
the name hold. It finds a definition on a line exactly when the line parts into some text, a
keyword, blanks, possibly a receiver, the name and some text, such that neither the keyword nor
the name is a part of a longer word. A search for usages passes over just these lines.
-/

namespace CodeSpan

/-- What may stand between the blanks and the name: nothing, or words and colons that end in a
dot or in two colons. -/
def IsReceiver (s : List Char) : Prop :=
  s = [] ∨ ∃ path mark, s = path ++ mark ∧ path ≠ [] ∧
    (∀ c ∈ path, Text.isWord c = true ∨ c = ':') ∧ (mark = ['.'] ∨ mark = [':', ':'])

/-- The line parts into some text, a keyword, blanks, possibly a receiver, the name and some
text. -/
def DefinesName (keywords : List (List Char)) (name code : List Char) : Prop :=
  ∃ before, ∃ keyword ∈ keywords, ∃ gap receiver after,
    code = before ++ keyword ++ gap ++ receiver ++ name ++ after ∧
    (∀ c ∈ before.getLast?, Text.isWord c = false) ∧
    gap ≠ [] ∧ (∀ c ∈ gap, Text.isBlank c = true) ∧ IsReceiver receiver ∧
    (∀ c ∈ after.head?, Text.isWord c = false ∧ c ≠ '?' ∧ c ≠ '!')

namespace Definition

open Pattern CodeSpan.Expr

def start : Expr :=
  .alt .textStart (.set (.compl .word))

def gap : Expr :=
  repeated (.set .blank) 1 none false

def receiverPath : Expr :=
  repeated (.set (.union .word (.single ':'))) 1 none false

def receiverMark : Expr :=
  .alt (.set (.single '.')) (concat (letters [':', ':']))

def receiver : Expr :=
  repeated (concat [receiverPath, receiverMark]) 0 (some 1) false

def stop : Expr :=
  .alt (.set (.compl (.union (.union .word (.single '?')) (.single '!')))) .textEnd

/-- The expression that the pattern for the definitions of a name is read into. -/
def expr (keywords : List (List Char)) (name : List Char) : Expr :=
  concat ([start, choice (keywords.map fun k => concat (letters k)), gap, receiver] ++
    letters name ++ [stop])

variable {keywords : List (List Char)} {name code a b w : List Char}

theorem matches_start : start.Matches a w b ↔
    w = [] ∧ a = [] ∨ ∃ x, w = [x] ∧ Text.isWord x = false := by
  simp only [start, matches_alt, matches_textStart, matches_set, CharSet.mem_compl,
    CharSet.mem_word, Bool.not_eq_true']

theorem matches_gap : gap.Matches a w b ↔ w ≠ [] ∧ ∀ c ∈ w, Text.isBlank c = true := by
  change (Expr.seq .empty (.plus (.set .blank) false)).Matches a w b ↔ _
  simp only [matches_seq, matches_empty, matches_plus_set, CharSet.mem_blank, ↓existsAndEq,
    List.nil_append, true_and]

theorem matches_receiverPath : receiverPath.Matches a w b ↔
    w ≠ [] ∧ ∀ c ∈ w, Text.isWord c = true ∨ c = ':' := by
  change (Expr.seq .empty (.plus (.set (.union .word (.single ':'))) false)).Matches a w b ↔ _
  simp only [matches_seq, matches_empty, matches_plus_set, CharSet.mem_union, CharSet.mem_word,
    CharSet.mem_single, Bool.or_eq_true, ↓existsAndEq, List.nil_append, true_and]

theorem matches_receiverMark : receiverMark.Matches a w b ↔ w = ['.'] ∨ w = [':', ':'] := by
  simp only [receiverMark, matches_alt, matches_set, matches_letters, CharSet.mem_single,
    exists_eq_right]

theorem matches_receiver : receiver.Matches a w b ↔ IsReceiver w := by
  change (Expr.seq .empty (.opt (.seq (.seq receiverPath receiverMark) .empty) false)).Matches
    a w b ↔ _
  simp only [matches_seq, matches_empty, matches_opt, matches_receiverPath, matches_receiverMark,
    IsReceiver, ↓existsAndEq, List.nil_append, List.append_nil, true_and, and_true, and_assoc]

theorem matches_stop : stop.Matches a w b ↔
    (∃ x, w = [x] ∧ Text.isWord x = false ∧ x ≠ '?' ∧ x ≠ '!') ∨ w = [] ∧ b = [] := by
  simp only [stop, matches_alt, matches_textEnd, matches_set, CharSet.mem_compl,
    CharSet.mem_union, CharSet.mem_word, CharSet.mem_single_eq, Bool.not_eq_true',
    Bool.or_eq_false_iff, beq_eq_false_iff_ne, and_assoc]

theorem matches_expr (hne : keywords ≠ []) : (expr keywords name).Matches a w b ↔
    ∃ lead, ∃ keyword ∈ keywords, ∃ gap receiver trail,
      w = lead ++ keyword ++ gap ++ receiver ++ name ++ trail ∧
      (lead = [] ∧ a = [] ∨ ∃ x, lead = [x] ∧ Text.isWord x = false) ∧
      gap ≠ [] ∧ (∀ c ∈ gap, Text.isBlank c = true) ∧ IsReceiver receiver ∧
      ((∃ x, trail = [x] ∧ Text.isWord x = false ∧ x ≠ '?' ∧ x ≠ '!') ∨ trail = [] ∧ b = []) := by
  have hchoice : (keywords.map fun k => concat (letters k)) ≠ [] := by simpa using hne
  simp only [expr, matches_concat_append, matches_concat_cons, matches_concat_nil,
    matches_letters, matches_choice hchoice, List.mem_map, matches_start, matches_gap,
    matches_receiver, matches_stop, ↓existsAndEq, List.append_nil, true_and, and_true]
  simp only [List.append_assoc, List.nil_append]
  constructor
  · rintro ⟨trail, lead, keyword, gap, receiver, hw, ⟨hlead, hmem, ⟨hgap, hblank⟩, hreceiver⟩,
      htrail⟩
    exact ⟨lead, keyword, hmem, gap, receiver, trail, hw, hlead, hgap, hblank, hreceiver, htrail⟩
  · rintro ⟨lead, keyword, hmem, gap, receiver, trail, hw, hlead, hgap, hblank, hreceiver, htrail⟩
    exact ⟨trail, lead, keyword, gap, receiver, hw, ⟨hlead, hmem, ⟨hgap, hblank⟩, hreceiver⟩,
      htrail⟩

/-- The text before a keyword is empty or ends in a character that the pattern takes along. -/
theorem exists_lead_iff {before : List Char} :
    (∃ a lead, before = a ++ lead ∧
      (lead = [] ∧ a = [] ∨ ∃ x, lead = [x] ∧ Text.isWord x = false)) ↔
    ∀ c ∈ before.getLast?, Text.isWord c = false := by
  constructor
  · rintro ⟨a, lead, rfl, ⟨rfl, rfl⟩ | ⟨x, rfl, hx⟩⟩
    · simp
    · simpa using hx
  · intro hlast
    rcases List.eq_nil_or_concat' before with rfl | ⟨a, x, rfl⟩
    · exact ⟨[], [], rfl, .inl ⟨rfl, rfl⟩⟩
    · exact ⟨a, [x], rfl, .inr ⟨x, rfl, hlast x (by simp)⟩⟩

theorem exists_trail_iff {after : List Char} :
    (∃ trail b, after = trail ++ b ∧
      ((∃ x, trail = [x] ∧ Text.isWord x = false ∧ x ≠ '?' ∧ x ≠ '!') ∨ trail = [] ∧ b = [])) ↔
    ∀ c ∈ after.head?, Text.isWord c = false ∧ c ≠ '?' ∧ c ≠ '!' := by
  constructor
  · rintro ⟨trail, b, rfl, ⟨x, rfl, hx⟩ | ⟨rfl, rfl⟩⟩
    · simpa using hx
    · simp
  · intro hhead
    cases after with
    | nil => exact ⟨[], [], rfl, .inr ⟨rfl, rfl⟩⟩
    | cons x b => exact ⟨[x], b, rfl, .inl ⟨x, rfl, hhead x rfl⟩⟩

theorem matchesWithin_expr (hne : keywords ≠ []) :
    (expr keywords name).matchesWithin code = true ↔ DefinesName keywords name code := by
  simp only [matchesWithin_iff, matches_expr hne]
  constructor
  · rintro ⟨a, w, b, hcode, lead, keyword, hmem, gap, receiver, trail, rfl, hlead, hgap, hblank,
      hreceiver, htrail⟩
    refine ⟨a ++ lead, keyword, hmem, gap, receiver, trail ++ b, ?_,
      exists_lead_iff.1 ⟨a, lead, rfl, hlead⟩, hgap, hblank, hreceiver,
      exists_trail_iff.1 ⟨trail, b, rfl, htrail⟩⟩
    simpa only [List.append_assoc] using hcode
  · rintro ⟨before, keyword, hmem, gap, receiver, after, hcode, hbefore, hgap, hblank, hreceiver,
      hafter⟩
    obtain ⟨a, lead, rfl, hlead⟩ := exists_lead_iff.2 hbefore
    obtain ⟨trail, b, rfl, htrail⟩ := exists_trail_iff.2 hafter
    refine ⟨a, _, b, ?_, lead, keyword, hmem, gap, receiver, trail, rfl, hlead, hgap, hblank,
      hreceiver, htrail⟩
    simpa only [List.append_assoc] using hcode

instance (keywords : List (List Char)) (name code : List Char) :
    Decidable (DefinesName keywords name code) :=
  decidable_of_iff (keywords ≠ [] ∧ (expr keywords name).matchesWithin code = true) <| by
    constructor
    · rintro ⟨hne, h⟩
      exact (matchesWithin_expr hne).1 h
    · intro h
      obtain ⟨-, keyword, hmem, -⟩ := id h
      have hne := List.ne_nil_of_mem hmem
      exact ⟨hne, (matchesWithin_expr hne).2 h⟩

/-- The text of the pattern before the keywords, between the keywords and the name, and behind
the name. -/
def leadText : List Char :=
  "(?:^|\\W)(?:".toList

def middleText : List Char :=
  ")\\s+(?:[\\w:]+(?:\\.|::))?".toList

def trailText : List Char :=
  "(?:[^\\w?!]|$)".toList

def leadTokens : List Token :=
  [.opening, .assertion .textStart, .bar, .set (.compl .word), .closing, .opening]

def middleTokens : List Token :=
  [.closing, .set .blank, .repetition 1 none false, .opening, .set (.union .word (.single ':')),
    .repetition 1 none false, .opening, .set (.single '.'), .bar, .set (.single ':'),
    .set (.single ':'), .closing, .closing, .repetition 0 (some 1) false]

def trailTokens : List Token :=
  [.opening, .set (.compl (.union (.union .word (.single '?')) (.single '!'))), .bar,
    .assertion .textEnd, .closing]

theorem cutInto_trail : CutInto trailText trailTokens :=
  .opening (.set rfl (by decide) (.sign rfl (.sign rfl (.sign rfl .nil))))

/-- The repetition before a name is not taken for a lazy one, whatever the name begins with. -/
theorem repetition_escape (min : Nat) (max : Option Nat) (name : List Char) {rest : List Char}
    (hrest : rest.head? ≠ some '?') :
    repetition min max (escape name ++ rest) =
      (.repetition min max false, escape name ++ rest) := by
  have hhead : (escape name ++ rest).head? ≠ some '?' := by
    cases name with
    | nil => exact hrest
    | cons c s =>
        rw [escape_cons]
        split
        · intro hc
          cases hc
        · next hc =>
            intro hc'
            cases hc'
            exact hc (by decide)
  rw [repetition.eq_def]
  split
  · next h => exact absurd (congrArg List.head? h) hhead
  · rfl

theorem class?_receiver (rest : List Char) :
    class? ('\\' :: 'w' :: ':' :: ']' :: rest) = some (.union .word (.single ':'), rest) := rfl

theorem cutInto_middle {name : List Char} {ts : List Token}
    (h : CutInto (escape name ++ trailText) ts) :
    CutInto (middleText ++ (escape name ++ trailText)) (middleTokens ++ ts) := by
  have hlast : next? '?' (escape name ++ trailText) =
      some (.repetition 0 (some 1) false, escape name ++ trailText) :=
    congrArg some (repetition_escape 0 (some 1) name (by decide))
  have htext : middleText = [')', '\\', 's', '+', '(', '?', ':', '[', '\\', 'w', ':', ']', '+',
      '(', '?', ':', '\\', '.', '|', ':', ':', ')', ')', '?'] := rfl
  rw [htext]
  refine .sign rfl (.escaped rfl (.sign rfl (.opening (.set (class?_receiver _) ?_ (.sign rfl
    (.opening (.escaped rfl (.sign rfl (.sign rfl (.sign rfl (.sign rfl (.sign rfl
      (.sign hlast h)))))))))))))
  exact Nat.le_add_right _ 4

theorem cutInto_lead {s : List Char} {ts : List Token} (h : CutInto s ts) :
    CutInto (leadText ++ s) (leadTokens ++ ts) := by
  have htext : leadText = ['(', '?', ':', '^', '|', '\\', 'W', ')', '(', '?', ':'] := rfl
  rw [htext]
  exact .opening (.sign rfl (.sign rfl (.escaped rfl (.sign rfl (.opening h)))))

theorem cutInto_definitionText (keywords : List (List Char)) (name : List Char) :
    CutInto (definitionText keywords name)
      (leadTokens ++ (branchTokens keywords ++ (middleTokens ++ (letterTokens name ++
        trailTokens)))) := by
  have hmiddle := cutInto_middle (cutInto_trail.letters name)
  have hlead := cutInto_lead (hmiddle.branches keywords)
  have hsplit : definitionText keywords name = leadText ++
      (['|'].intercalate (keywords.map escape) ++ (middleText ++ (escape name ++ trailText))) := by
    change leadText ++ _ ++ middleText ++ _ ++ trailText = _
    simp only [List.append_assoc]
  rwa [hsplit]

/-- The text put together for a name is read, whatever characters the name and the keywords
hold. -/
theorem read?_definitionText (hne : keywords ≠ []) (name : List Char) :
    read? (definitionText keywords name) = some (expr keywords name) := by
  obtain ⟨g, hg, hexpr⟩ := Reading.foldlM_branches hne [] false [⟨[], [start], true, false⟩]
  have hlead : leadTokens.foldlM Reading.step Reading.start =
      some ⟨⟨[], [], false, false⟩, [⟨[], [start], true, false⟩]⟩ := by
    decide
  have hmiddle : middleTokens.foldlM Reading.step ⟨g, [⟨[], [start], true, false⟩]⟩ =
      some ⟨⟨[], [receiver, gap, g.toExpr, start], true, false⟩, []⟩ := rfl
  have hname := Reading.foldlM_letters [] [receiver, gap, g.toExpr, start] true [] name
  have htrail : ∀ items, trailTokens.foldlM Reading.step ⟨⟨[], items, true, false⟩, []⟩ =
      some ⟨⟨[], stop :: items, true, false⟩, []⟩ := fun _ => rfl
  rw [Bool.true_or] at hname
  rw [read?, (cutInto_definitionText keywords name).tokens?_eq]
  simp only [List.foldlM_append, hlead, hg, hmiddle, hname, htrail, bind, Option.bind_some]
  rw [hexpr]
  simp [Reading.finish?, Group.toExpr, expr, Expr.choice]

end Definition

theorem exists_definitionPattern? {keywords : List (List Char)} (hne : keywords ≠ [])
    (name : List Char) : ∃ p, definitionPattern? keywords name = some p ∧
      p.expr = Definition.expr keywords name := by
  have hread := Definition.read?_definitionText hne name
  have hsome : (Pattern.ofText? (definitionText keywords name)).isSome = true := by
    rw [Pattern.ofText?_isSome, hread]
    rfl
  obtain ⟨p, hp⟩ := Option.isSome_iff_exists.1 hsome
  refine ⟨p, ?_, ?_⟩
  · rw [definitionPattern?, if_neg (by simpa using hne), hp]
  · have htext := p.read_text
    rw [Pattern.text_of_ofText? hp, hread] at htext
    exact (Option.some.inj htext).symm

/-- The part of a name that definitions of it show: its leaf, if it is qualified. -/
def Query.leafIn (q : Query) (d : Dialect) : List Char :=
  ((Qualified.split? q.name d.qualifiers).map (·.leaf)).getD q.name

theorem isDefinition_iff {q : Query} {d : Dialect} {code : List Char} :
    (SearchPlan.ofQuery q d).isDefinition code = true ↔
      q.mode = .usage ∧ DefinesName d.definitionKeywords (q.leafIn d) code := by
  cases hmode : q.mode with
  | declaration => simp [SearchPlan.isDefinition, SearchPlan.ofQuery, hmode]
  | usage =>
      have hplan : (SearchPlan.ofQuery q d).definition =
          definitionPattern? d.definitionKeywords (q.leafIn d) := by
        rw [SearchPlan.ofQuery, hmode]
        rfl
      rw [SearchPlan.isDefinition, hplan, eq_self, true_and]
      by_cases hne : d.definitionKeywords = []
      · simp [definitionPattern?, DefinesName, hne]
      · obtain ⟨p, hp, hexpr⟩ := exists_definitionPattern? hne (q.leafIn d)
        rw [hp, Option.any_some, Pattern.isMatch, hexpr, Definition.matchesWithin_expr hne]

theorem mem_eligibleLines_iff {t : Source} {q : Query} {d : Dialect} {line : EligibleLine} :
    line ∈ eligibleLines t q d ↔ t.lines[line.number]? = some line.text ∧
      (d.comments.classes t.lines)[line.number]? = some (.code line.code) ∧
      (q.mode = .usage → ¬ DefinesName d.definitionKeywords (q.leafIn d) line.code) := by
  rw [eligibleLines, SearchPlan.mem_eligible_iff, List.getElem?_zip_eq_some, ← Bool.not_eq_true,
    isDefinition_iff, not_and, and_assoc]

/-- For every list of keywords and every name there is a pattern, and it finds exactly the lines
that define the name. A search for usages passes over just these lines of code. -/
theorem definition_lines_recognised {keywords : List (List Char)} (hne : keywords ≠ [])
    (name : List Char) :
    (∃ p, definitionPattern? keywords name = some p ∧
      ∀ code, p.isMatch code = true ↔ DefinesName keywords name code) ∧
    ∀ (t : Source) (q : Query) (d : Dialect), q.mode = .usage → d.definitionKeywords = keywords →
      q.leafIn d = name → ∀ i line code, t.lines[i]? = some line →
        (d.comments.classes t.lines)[i]? = some (.code code) →
          (⟨i, line, code⟩ ∉ eligibleLines t q d ↔ DefinesName keywords name code) := by
  refine ⟨?_, ?_⟩
  · obtain ⟨p, hp, hexpr⟩ := exists_definitionPattern? hne name
    refine ⟨p, hp, fun code => ?_⟩
    rw [Pattern.isMatch, hexpr, Definition.matchesWithin_expr hne]
  · rintro t q d hmode rfl rfl i line code hline hcode
    rw [mem_eligibleLines_iff, and_iff_right hline, and_iff_right hcode, hmode]
    simp

/-- A name that ends in a sign is defined behind a receiver, while a longer name and a mere use
are not definitions of it. -/
theorem definition_lines_recognised_keyword :
    let t : Source := ⟨["def Été::self.a?(x)", "def a?!", "puts a?"].map String.toList⟩
    ∃ q : Query, q.name = "Été.a?".toList ∧ q.mode = .usage ∧
      DefinesName DialectKind.keyword.dialect.definitionKeywords "a?".toList
        "def Été::self.a?(x)".toList ∧
      eligibleLines t q DialectKind.keyword.dialect =
        [⟨1, "def a?!".toList, "def a?!".toList⟩, ⟨2, "puts a?".toList, "puts a?".toList⟩] := by
  intro t
  let q : Query := ⟨"Été.a?".toList, none, .usage, by decide, by simp⟩
  have heligible : eligibleLines t q DialectKind.keyword.dialect =
      [⟨1, "def a?!".toList, "def a?!".toList⟩, ⟨2, "puts a?".toList, "puts a?".toList⟩] := by
    decide +kernel
  have hiff := (definition_lines_recognised (List.cons_ne_nil _ _) "a?".toList).2 t q
    DialectKind.keyword.dialect rfl rfl (by decide +kernel) 0 _ "def Été::self.a?(x)".toList rfl
    (by decide +kernel)
  refine ⟨q, rfl, rfl, hiff.1 ?_, heligible⟩
  rw [heligible]
  decide

end CodeSpan
