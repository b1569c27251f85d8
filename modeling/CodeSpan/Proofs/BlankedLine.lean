import CodeSpan.Locate.Search
import CodeSpan.Proofs.Classify

/-!
# Queries on blanked lines

Blanks around a name and a hint are dropped, so both hold characters that are not blank, and a
hint begins with one. The name is sought in the code of a line, which is blank where comments
are blanked out. The hint is sought in the line itself, but a place of it counts only if it
begins with the byte that the code has there, and over a comment the code has spaces. Hence no
tier of any query matches on a line of which nothing but blanks is left.
-/

namespace CodeSpan

namespace Text

variable {s before after : List Char} {c : Char} {start stop : Nat}

theorem head?_trimStart (h : trimStart s ≠ []) : (trimStart s).head?.all isBlank = false := by
  have hstop := List.head?_dropWhile_not isBlank s
  rw [trimStart] at h ⊢
  cases hd : s.dropWhile isBlank with
  | nil => exact absurd hd h
  | cons c rest =>
      rw [hd] at hstop
      exact hstop

theorem head?_trim (h : trim s ≠ []) : (trim s).head?.all isBlank = false := by
  have hprefix : trim s <+: trimStart s := by
    rw [trim, trimEnd, ← List.reverse_suffix, List.reverse_reverse]
    exact List.dropWhile_suffix _
  obtain ⟨rest, hrest⟩ := hprefix
  obtain ⟨c, s', hs'⟩ := List.exists_cons_of_ne_nil h
  have hne : trimStart s ≠ [] := by
    rw [← hrest, hs']
    exact List.cons_ne_nil _ _
  have hhead := head?_trimStart hne
  rw [← hrest, hs'] at hhead
  rw [hs']
  exact hhead

theorem getLast?_trim (h : trim s ≠ []) : (trim s).getLast?.all isBlank = false := by
  rw [trim, trimEnd] at h ⊢
  rw [List.getLast?_reverse]
  exact head?_trimStart fun hnil => h (congrArg List.reverse hnil)

theorem isBlankText_eq_false_of_head? (h : s.head?.all isBlank = false) :
    isBlankText s = false := by
  cases s with
  | nil => cases h
  | cons c s =>
      rw [List.head?_cons, Option.all_some] at h
      rw [isBlankText, List.all_cons, h, Bool.false_and]

theorem isBlankText_eq_false_of_getLast? (h : s.getLast?.all isBlank = false) :
    isBlankText s = false := by
  rw [← List.head?_reverse] at h
  have hrev := isBlankText_eq_false_of_head? h
  rwa [isBlankText, List.all_reverse] at hrev

theorem utf8Bytes_spaces (n : Nat) :
    utf8Bytes (List.replicate n ' ') = List.replicate n 0x20 := by
  induction n with
  | zero => rfl
  | succ n ih =>
      rw [List.replicate_succ, List.replicate_succ, ← ih]
      rfl

/-- Only the space itself begins with the byte of a space. -/
theorem eq_space_of_head?_utf8EncodeChar
    (h : (String.utf8EncodeChar c).head? = some 0x20) : c = ' ' := by
  unfold String.utf8EncodeChar at h
  dsimp only at h
  have hbyte : ∀ n, some (UInt8.ofNat n) = some 0x20 → n % 2 ^ 8 = 32 := by
    intro n hn
    have hnat := congrArg UInt8.toNat (Option.some.inj hn)
    rwa [UInt8.toNat_ofNat'] at hnat
  -- The first byte of a longer form is 192 at least.
  split_ifs at h with hone htwo hthree
  · have hval : c.val.toNat = 32 := by
      have hmod := hbyte _ h
      omega
    exact Char.ext (UInt32.toNat.inj hval)
  all_goals
    have hmod := hbyte _ h
    omega

theorem byteAt?_append_cons :
    byteAt? (before ++ c :: after) (byteLength before) = (String.utf8EncodeChar c).head? := by
  have hpos : 0 < (String.utf8EncodeChar c).length := by
    rw [String.length_utf8EncodeChar]
    exact c.utf8Size_pos
  rw [byteAt?, utf8Bytes_append, List.getElem?_append_right (by simp), length_utf8Bytes,
    Nat.sub_self, utf8Bytes, List.flatMap_cons, List.getElem?_append_left hpos,
    List.head?_eq_getElem?]

theorem between_of_not_blank (hc : isBlank c = false)
    (hstart : isBlankText ((before ++ c :: after).take start) = true)
    (hstop : isBlankText ((before ++ c :: after).drop stop) = true) :
    start ≤ before.length ∧ before.length < stop := by
  constructor
  · by_contra hlt
    have hin : before ++ [c] <+: (before ++ c :: after).take start :=
      List.prefix_take_iff.2 ⟨⟨after, by simp⟩, by simp; omega⟩
    exact notMem_of_isBlankText hstart hc (hin.subset (by simp))
  · by_contra hle
    have hdrop : (before ++ c :: after).drop stop = before.drop stop ++ c :: after :=
      List.drop_append_of_le_length (by omega)
    exact notMem_of_isBlankText hstop hc (by simp [hdrop])

/-- Where a character is blanked out, the code has the byte of a space. -/
theorem byteAt?_blank (hstart : start ≤ before.length) (hstop : before.length < stop) :
    byteAt? (CommentSyntax.blank (before ++ c :: after) start stop) (byteLength before) =
      some 0x20 := by
  obtain ⟨k, rfl⟩ := Nat.exists_eq_add_of_lt hstop
  have hleft : (before ++ c :: after).take start = before.take start :=
    List.take_append_of_le_length hstart
  have hmid : ((before ++ c :: after).take (before.length + k + 1)).drop start =
      before.drop start ++ c :: after.take k := by
    rw [Nat.add_assoc, List.take_length_add_append, List.take_succ_cons,
      List.drop_append_of_le_length hstart]
  have hlen : byteLength before =
      byteLength (before.take start) + byteLength (before.drop start) := by
    rw [← byteLength_append, List.take_append_drop]
  have hpos := c.utf8Size_pos
  have hin : byteLength (before.drop start) <
      byteLength (before.drop start ++ c :: after.take k) := by
    rw [byteLength_append, byteLength_cons]
    omega
  rw [byteAt?, CommentSyntax.blank, hleft, hmid, hlen, List.append_assoc, utf8Bytes_append,
    utf8Bytes_append, utf8Bytes_spaces, List.getElem?_append_right (by simp), length_utf8Bytes,
    Nat.add_sub_cancel_left, List.getElem?_append_left (by simpa using hin),
    List.getElem?_replicate, if_pos hin]

end Text

/-- The characters of a query that a search relies on are not blank: the first one of the hint
and the last one of the name. -/
structure Query.Trimmed (q : Query) : Prop where
  name_last : q.name.getLast?.all Text.isBlank = false
  hint_head : ∀ hint ∈ q.hint, hint.head?.all Text.isBlank = false

theorem Query.trimmed_of_ofText {name : List Char} {hint : Option (List Char)}
    {mode : SearchMode} {q : Query} (h : Query.ofText name hint mode = .ok q) : q.Trimmed := by
  unfold Query.ofText at h
  dsimp only at h
  split at h
  · cases h
  · next hname =>
      cases h
      refine ⟨Text.getLast?_trim hname, ?_⟩
      intro hint' hmem
      obtain ⟨hmap, hne⟩ := Option.filter_eq_some_iff.1 (Option.mem_def.1 hmem)
      obtain ⟨raw, -, rfl⟩ := Option.map_eq_some_iff.1 hmap
      exact Text.head?_trim (by simpa using hne)

namespace Qualified

variable {name : List Char} {separators : List (List Char)} {p : Qualified}

theorem mem_of_foldl_shorter {best : Option Qualified} {partings : List Qualified}
    (h : partings.foldl shorter best = some p) : best = some p ∨ p ∈ partings := by
  induction partings generalizing best with
  | nil => exact .inl h
  | cons q partings ih =>
      rcases ih h with hbest | hmem
      · unfold shorter at hbest
        split at hbest
        · exact .inr (Option.some.inj hbest ▸ List.mem_cons_self)
        · split_ifs at hbest
          · exact .inr (Option.some.inj hbest ▸ List.mem_cons_self)
          · exact .inl hbest
      · exact .inr (List.mem_cons_of_mem q hmem)

theorem leaf_of_split? (h : split? name separators = some p) : p.leaf ≠ [] ∧ p.leaf <:+ name := by
  obtain ⟨hfold, hne⟩ := Option.filter_eq_some_iff.1 h
  refine ⟨by simpa using hne, ?_⟩
  rcases mem_of_foldl_shorter hfold with hnone | hmem
  · cases hnone
  · obtain ⟨separator, -, hparting⟩ := List.mem_filterMap.1 hmem
    obtain ⟨o, ho, rfl⟩ := Option.map_eq_some_iff.1 hparting
    exact ⟨o.before ++ separator, (Text.eq_append_of_lastOccurrence? ho).symm⟩

theorem isBlankText_needle (h : split? name separators = some p)
    (hname : name.getLast?.all Text.isBlank = false) : Text.isBlankText p.needle = false := by
  obtain ⟨hne, before, hname'⟩ := leaf_of_split? h
  apply Text.isBlankText_eq_false_of_getLast?
  rw [← hname', List.getLast?_append_of_ne_nil _ hne] at hname
  rwa [needle, List.getLast?_append_of_ne_nil _ hne]

end Qualified

namespace SearchPlan

variable {q : Query} {d : Dialect} {line code : List Char}

theorem boundedMatches_of_blank {needle : List Char} (hcode : Text.isBlankText code = true)
    (hneedle : Text.isBlankText needle = false) : boundedMatches needle code = [] := by
  rw [boundedMatches, Text.occurrences_of_blank hcode hneedle]
  rfl

theorem findIn_of_blank {p : Qualified} (hcode : Text.isBlankText code = true)
    (hneedle : Text.isBlankText p.needle = false) : p.findIn code = [] := by
  rw [Qualified.findIn, Text.occurrences_of_blank hcode hneedle]
  rfl

/-- A text that begins with no blank does not begin in code where all but blanks is blanked
out. -/
theorem startsInCode_blank {before after needle : List Char} {start stop : Nat}
    (hstart : Text.isBlankText ((before ++ needle ++ after).take start) = true)
    (hstop : Text.isBlankText ((before ++ needle ++ after).drop stop) = true)
    (hneedle : needle.head?.all Text.isBlank = false) :
    startsInCode (before ++ needle ++ after)
      (CommentSyntax.blank (before ++ needle ++ after) start stop)
      (Text.byteLength before) = false := by
  cases needle with
  | nil => cases hneedle
  | cons c needle =>
      have hc : Text.isBlank c = false := hneedle
      rw [List.append_assoc, List.cons_append] at hstart hstop ⊢
      obtain ⟨hlow, hhigh⟩ := Text.between_of_not_blank hc hstart hstop
      rw [startsInCode, Text.byteAt?_blank hlow hhigh, Text.byteAt?_append_cons,
        Bool.and_eq_false_iff, beq_eq_false_iff_ne]
      right
      intro hspace
      rw [Text.eq_space_of_head?_utf8EncodeChar hspace] at hc
      cases hc

theorem matchHint?_of_blanked (hq : q.Trimmed)
    (hb : (LineClass.code code).Blanked line) :
    (SearchPlan.ofQuery q d).matchHint? line code = none := by
  obtain ⟨start, stop, hstart, hstop, rfl⟩ := hb
  unfold matchHint?
  cases hhint : q.hint with
  | none => simp [SearchPlan.ofQuery, hhint]
  | some hint =>
      have hnone : (boundedMatches hint line).filter (fun r => startsInCode line
          (CommentSyntax.blank line start stop) r.start) = [] := by
        rw [List.filter_eq_nil_iff]
        intro r hr
        obtain ⟨o, ho, rfl⟩ := List.mem_map.1 hr
        have happ := Text.eq_append_of_mem_occurrences (List.mem_of_mem_filter ho)
        subst happ
        rw [Bool.not_eq_true]
        exact startsInCode_blank hstart hstop (hq.hint_head hint hhint)
      simp [SearchPlan.ofQuery, hhint, hnone]

/-- No tier matches on a line of which nothing but blanks is left. -/
theorem matchTier?_of_blanked (hq : q.Trimmed) (hb : (LineClass.code code).Blanked line)
    (tier : Tier) : (SearchPlan.ofQuery q d).matchTier? tier line code = none := by
  have hcode : Text.isBlankText code = true := CommentSyntax.silent_of_blanked hb
  cases tier with
  | hint => exact matchHint?_of_blanked hq hb
  | qualified =>
      rw [matchTier?]
      cases hp : (SearchPlan.ofQuery q d).qualified with
      | none => rfl
      | some p =>
          have hneedle := Qualified.isBlankText_needle hp hq.name_last
          rw [Option.bind_some, findIn_of_blank hcode hneedle]
          rfl
  | name =>
      have hname : Text.isBlankText (SearchPlan.ofQuery q d).query.name = false :=
        Text.isBlankText_eq_false_of_getLast? hq.name_last
      rw [matchTier?, boundedMatches_of_blank hcode hname]
      rfl

end SearchPlan

end CodeSpan
