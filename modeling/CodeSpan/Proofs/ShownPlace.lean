import CodeSpan.Command.Run
import CodeSpan.Proofs.CommandLine
import CodeSpan.Proofs.LiveCode
import CodeSpan.Proofs.LocatedText
import CodeSpan.Proofs.Segment

/-!
# Places and prompts as they are shown

A place is shown as the path of its file, its line and its column, with colons between them. A
path may hold colons of its own, but a numeral holds none, so a place is read back from its end.
Lines and columns are bounded by the size of the file, and a prompt is the fence of its code
behind that of its purpose.
-/

namespace CodeSpan

namespace Text

variable {s t s' t' : List Char} {c sep : Char} {n k : Nat}

/-- A text is parted in one way at the last occurrence of a character. -/
theorem append_cons_inj (ht : c ∉ t) (ht' : c ∉ t') (h : s ++ c :: t = s' ++ c :: t') :
    s = s' ∧ t = t' := by
  rcases List.append_eq_append_iff.1 h with ⟨a, rfl, ha⟩ | ⟨a, rfl, ha⟩
  · cases a with
    | nil => exact ⟨(List.append_nil s).symm, (List.cons.inj ha).2⟩
    | cons b a => exact absurd ((List.cons.inj ha).2 ▸ by simp) ht
  · cases a with
    | nil => exact ⟨List.append_nil s', (List.cons.inj ha).2.symm⟩
    | cons b a => exact absurd ((List.cons.inj ha).2 ▸ by simp) ht'

theorem colon_notMem_decimal (n : Nat) : ':' ∉ decimal n := by
  intro h
  cases isDigit_of_mem_decimal h

theorem charsBefore?_le (h : charsBefore? s n = some k) : k ≤ n := by
  induction s generalizing n k with
  | nil =>
      cases n with
      | zero => cases h; exact Nat.le_refl 0
      | succ n => cases h
  | cons c s ih =>
      cases n with
      | zero => cases h; exact Nat.le_refl 0
      | succ n =>
          unfold charsBefore? at h
          split_ifs at h with hc
          obtain ⟨m, hm, rfl⟩ := Option.map_eq_some_iff.1 h
          have hle := ih hm
          have hpos := c.utf8Size_pos
          omega

theorem length_splitOn_le (sep : Char) (s : List Char) :
    (List.splitOn sep s).length ≤ byteLength s + 1 := by
  rw [length_splitOn]
  exact Nat.succ_le_succ (Nat.le_trans List.count_le_length (length_le_byteLength s))

theorem byteLength_le_of_sublist (h : s.Sublist t) : byteLength s ≤ byteLength t := by
  induction h with
  | slnil => exact Nat.le_refl 0
  | cons c h ih => exact Nat.le_add_left_of_le ih
  | cons_cons c h ih => exact Nat.add_le_add_left ih _

theorem trimEnd_append_newline (s : List Char) : trimEnd (s ++ ['\n']) = trimEnd s := by
  have hblank : isBlank '\n' = true := by decide
  rw [trimEnd, List.reverse_append, List.reverse_singleton, List.singleton_append,
    List.dropWhile_cons_of_pos hblank]
  rfl

end Text

variable {line code text : List Char} {offset : Nat} {r : ByteRange} {t : Source} {q : Query}
  {d : Dialect} {p : Position}

theorem columnAt_le (line : List Char) (offset : Nat) : columnAt line offset ≤ offset := by
  unfold columnAt
  cases h : Text.charsBefore? line offset with
  | none => exact Nat.le_refl offset
  | some k => exact Text.charsBefore?_le h

theorem Text.BeginsAt.le {s : List Char} (h : Text.BeginsAt s line offset) :
    offset ≤ Text.byteLength line := by
  obtain ⟨before, after, rfl, rfl⟩ := h
  simp only [Text.byteLength_append]
  omega

theorem SearchPlan.start_le_of_matchTier? {plan : SearchPlan} {tier : Tier}
    (hcode : Text.byteLength code ≤ Text.byteLength line)
    (h : plan.matchTier? tier line code = some r) : r.start ≤ Text.byteLength line := by
  cases tier with
  | hint =>
      obtain ⟨hqualified, hname⟩ := beginsAt_of_matchHint? h
      cases hplan : plan.qualified with
      | some parts => exact (hqualified parts hplan).le
      | none => rcases hname hplan with hbegins | ⟨hint, -, hbegins⟩ <;> exact hbegins.le
  | qualified =>
      obtain ⟨parts, -, hfound⟩ := Option.bind_eq_some_iff.1 h
      exact (Qualified.beginsAt_of_mem_findIn
        (List.mem_of_mem_head? (Option.mem_def.2 hfound))).le.trans hcode
  | name =>
      exact (beginsAt_of_mem_boundedMatches
        (List.mem_of_mem_head? (Option.mem_def.2 h))).le.trans hcode

/-- Neither the line nor the column of a located position exceeds the bytes of the text. -/
theorem le_of_locate? (h : locate? (.ofText text) q d = some p) :
    p.line ≤ Text.byteLength text ∧ p.column ≤ Text.byteLength text := by
  obtain ⟨c, line, code, -, -, hline, hcode, hcolumn, hmatch⟩ := exists_match_of_locate? h
  constructor
  · have hlt := (List.getElem?_eq_some_iff.1 hline).1
    have hle := Text.length_splitOn_le '\n' text
    change p.line < (List.splitOn '\n' text).length at hlt
    omega
  · obtain ⟨left, body, right, tail, hs⟩ :=
      CommentSyntax.exists_stripped_of_classes d.comments_delimited hline hcode
    calc p.column = columnAt line c.range.start := hcolumn
      _ ≤ c.range.start := columnAt_le line _
      _ ≤ Text.byteLength line := SearchPlan.start_le_of_matchTier? hs.byteLength_code_le hmatch
      _ ≤ Text.byteLength text :=
        Text.byteLength_le_of_sublist
          (Text.sublist_of_mem_splitOn (List.mem_of_getElem? hline))

namespace Command

theorem byteLength_of_readText? {content : ByteArray} (h : readText? content = some text) :
    Text.byteLength text = content.size := by
  obtain ⟨s, hs, rfl⟩ := Option.map_eq_some_iff.1 h
  unfold String.fromUTF8? at hs
  split_ifs at hs with hvalid
  cases hs
  have hbytes : (String.fromUTF8 content hvalid).toList.utf8Encode = content :=
    String.utf8Encode_toList
  rw [← Text.length_utf8Bytes, ← List.size_toByteArray]
  exact congrArg ByteArray.size hbytes

/-- A place with its line and column counted from one, as it is printed. -/
def shownPlace (path : Path) (line column : Nat) : List Char :=
  path ++ ':' :: Text.decimal line ++ ':' :: Text.decimal column ++ ['\n']

theorem shownPlace_inj {path path' : Path} {line line' column column' : Nat} :
    shownPlace path line column = shownPlace path' line' column' ↔
      path = path' ∧ line = line' ∧ column = column' := by
  constructor
  · intro h
    have hplace := List.append_cancel_right h
    obtain ⟨hhead, hcolumn⟩ := Text.append_cons_inj (Text.colon_notMem_decimal _)
      (Text.colon_notMem_decimal _) hplace
    obtain ⟨hpath, hline⟩ := Text.append_cons_inj (Text.colon_notMem_decimal _)
      (Text.colon_notMem_decimal _) hhead
    exact ⟨hpath, Text.decimal_injective hline, Text.decimal_injective hcolumn⟩
  · rintro ⟨rfl, rfl, rfl⟩
    rfl

theorem location_eq_shownPlace (path : Path) (p : Position) :
    location path p false ++ ['\n'] = shownPlace path (p.line + 1) (p.column + 1) := by
  simp [location, shownPlace, Position.shown]

/-- What a prompt holds before its code. -/
def purposeFence (purpose : Option (List Char)) : List Char :=
  match (purpose.map Text.trim).filter fun p => !p.isEmpty with
  | none => []
  | some p => fenced "purpose".toList p ++ ['\n']

theorem prompt_eq (purpose : Option (List Char)) (code : List Char) :
    prompt purpose code = purposeFence purpose ++ fenced "code".toList (Text.trimEnd code) :=
  rfl

end Command

end CodeSpan
