import CodeSpan.Proofs.Segment

/-!
# Splitting and joining

A text has one line more than line feeds, and its lines are joined to the text again. Lines that
hold no line feed are in turn read back from what they are joined to. A range of lines may be cut
behind any of its lines: the texts of its parts, with a line feed between them, are the text of
the range, which may reach past the last line by any amount.
-/

namespace CodeSpan

namespace Source

variable {t : Source} {first middle last : Nat}

theorem isEmpty_eq_false_iff : t.isEmpty = false ↔ 0 < t.size := by
  rw [isEmpty, List.isEmpty_eq_false_iff, size, List.length_pos_iff]

theorem size_ofText (s : List Char) : (ofText s).size = s.count '\n' + 1 :=
  Text.length_splitOn '\n' s

theorem join_ofText {s : List Char} (h : (ofText s).size ≤ last + 1) :
    (ofText s).join 0 last = s := by
  rw [join_eq_intercalate_segment, segment_of_size_le h]
  exact List.intercalate_splitOn '\n'

theorem ofText_join_zero (hsplit : t.Split) (hpos : 0 < t.size) (h : t.size ≤ last + 1) :
    ofText (t.join 0 last) = t := by
  rw [ofText_join hsplit (Nat.zero_le last) hpos, segment_of_size_le h]

theorem lines_segment_append (hle : first ≤ middle) (hlt : middle < last)
    (hmiddle : middle < t.size) :
    (t.segment first middle).lines ++ (t.segment (middle + 1) last).lines =
      (t.segment first last).lines := by
  have htake : (t.lines.take (last + 1)).take (middle + 1) = t.lines.take (middle + 1) := by
    rw [List.take_take, Nat.min_eq_left (by omega)]
  have hfirst : first ≤ (t.lines.take (middle + 1)).length := by
    rw [size] at hmiddle
    rw [List.length_take]
    omega
  calc
    (t.lines.take (middle + 1)).drop first ++ (t.lines.take (last + 1)).drop (middle + 1) =
        (t.lines.take (middle + 1) ++ (t.lines.take (last + 1)).drop (middle + 1)).drop first :=
      (List.drop_append_of_le_length hfirst).symm
    _ = (t.lines.take (last + 1)).drop first := by rw [← htake, List.take_append_drop]

/-- A range is joined from its parts. The second part has a line, or there would be no line feed
to put between them. -/
theorem join_append_join (hle : first ≤ middle) (hlt : middle < last)
    (hnext : middle + 1 < t.size) :
    t.join first middle ++ '\n' :: t.join (middle + 1) last = t.join first last := by
  have hmiddle : middle < t.size := Nat.lt_of_succ_lt hnext
  have hfront := lines_segment_ne_nil hle (Nat.lt_of_le_of_lt hle hmiddle)
  have hback := lines_segment_ne_nil (Nat.succ_le_of_lt hlt) hnext
  rw [join_eq_intercalate_segment t first last, ← lines_segment_append hle hlt hmiddle,
    Text.intercalate_append hfront hback]
  rfl

theorem joinWords_eq (ht : t.size < UInt64.size) (first last : UInt64) :
    t.joinWords first last = t.join first.toNat last.toNat := by
  have hsize : (UInt64.ofNat t.size).toNat = t.size := UInt64.toNat_ofNat_of_lt' ht
  have hsum : (Word.saturatingPlus last 1).toNat = min (last.toNat + 1) (UInt64.size - 1) :=
    UInt64.toNat_ofNat_of_lt' (by simp only [UInt64.size]; omega)
  have hstop : (min (Word.saturatingPlus last 1) (.ofNat t.size)).toNat =
      min (last.toNat + 1) t.size := by
    rw [UInt64.toNat_min, hsum, hsize]
    omega
  rw [joinWords, join]
  split
  · next hle =>
      rw [UInt64.le_iff_toNat_le, hstop] at hle
      rw [List.drop_eq_nil_of_le (by rw [List.length_take]; exact hle), List.intercalate_nil]
  · rw [hstop, size, ← List.take_eq_take_min]

/-- Splitting and joining are inverse. A text is split into lines without line feeds, one more
than it has line feeds, and these are joined to the text again. One or more lines without line
feeds are read back from what they are joined to. A range of lines is joined from the two parts
on either side of a line feed. A range may end any distance behind the last line, and the join in
words, which counts no further than the largest word, gives the same text. -/
theorem join_inverts_split (s : List Char) (t : Source) :
    ((ofText s).isEmpty = false ∧ (ofText s).Split ∧ (ofText s).size = s.count '\n' + 1 ∧
      ∀ last, (ofText s).size - 1 ≤ last → (ofText s).join 0 last = s) ∧
    (t.isEmpty = false → t.Split →
      ∀ last, t.size - 1 ≤ last → ofText (t.join 0 last) = t) ∧
    (∀ a b c, a ≤ b → b < c → b + 1 < t.size →
      t.join a b ++ '\n' :: t.join (b + 1) c = t.join a c) ∧
    (t.size < UInt64.size → ∀ first last : UInt64,
      t.joinWords first last = t.join first.toNat last.toNat) := by
  refine ⟨⟨isEmpty_eq_false_iff.2 (size_ofText_pos s), split_ofText s, size_ofText s, ?_⟩, ?_, ?_,
    joinWords_eq⟩
  · intro last hlast
    exact join_ofText (Nat.sub_le_iff_le_add.1 hlast)
  · intro hne hsplit last hlast
    exact ofText_join_zero hsplit (isEmpty_eq_false_iff.1 hne) (Nat.sub_le_iff_le_add.1 hlast)
  · intro a b c hle hlt hnext
    exact join_append_join hle hlt hnext

theorem join_inverts_split_empty_lines :
    let s := "a\r\n\n".toList
    let t : Source := ⟨["a\r", "", ""].map String.toList⟩
    let last : UInt64 := 18446744073709551615
    (ofText s).size - 1 ≤ last.toNat ∧ (ofText s).join 0 last.toNat = s ∧
      t.isEmpty = false ∧ t.Split ∧ t.size - 1 ≤ last.toNat ∧ ofText (t.join 0 last.toNat) = t ∧
      1 < last.toNat ∧ 1 + 1 < t.size ∧
      t.join 0 1 ++ '\n' :: t.join (1 + 1) last.toNat = t.join 0 last.toNat ∧
      t.size < UInt64.size ∧ t.joinWords 0 last = t.join 0 last.toNat := by
  intro s t last
  obtain ⟨⟨-, -, -, hjoin⟩, hsplit, hranges, hwords⟩ := join_inverts_split s t
  have hsize : (ofText s).size - 1 ≤ last.toNat := by decide
  have hfree : t.Split := (by decide : ∀ line ∈ t.lines, '\n' ∉ line)
  have hlast : t.size - 1 ≤ last.toNat := by decide
  have hone : 1 < last.toNat := by decide
  have hnext : 1 + 1 < t.size := by decide
  have hword : t.size < UInt64.size := by decide
  exact ⟨hsize, hjoin _ hsize, rfl, hfree, hlast, hsplit rfl hfree _ hlast, hone, hnext,
    hranges 0 1 _ (Nat.zero_le 1) hone hnext, hword, hwords hword 0 last⟩

end Source
end CodeSpan
