import CodeSpan.Proofs.BlankedLine
import CodeSpan.Proofs.Candidate
import CodeSpan.Proofs.Insertion

/-!
# Location is blind to inserted comments

Inserting a chunk of comments delays the later lines of a text and keeps their classes, and no
tier of a query matches inside the chunk. So the matches in the longer text are those in the
shorter one, in the same order, and the candidate found is the same one, delayed.
-/

namespace CodeSpan

open Insertion

namespace Insertion

variable {α : Type} {place size j k : Nat}

theorem delayed_lt_delayed (h : j < k) : delayed place size j < delayed place size k := by
  unfold delayed
  split_ifs <;> omega

theorem lt_of_delayed_lt (h : delayed place size j < delayed place size k) : j < k := by
  unfold delayed at h
  split_ifs at h <;> omega

theorem inserted_or_delayed (place size j : Nat) :
    (∃ k < size, j = place + k) ∨ ∃ k, j = delayed place size k := by
  by_cases hbefore : j < place
  · exact .inr ⟨j, (if_pos hbefore).symm⟩
  · by_cases hin : j < place + size
    · exact .inl ⟨j - place, by omega, by omega⟩
    · refine .inr ⟨j - size, ?_⟩
      rw [delayed, if_neg (by omega)]
      omega

theorem getElem?_delayed (before chunk rest : List α) (j : Nat) :
    (before ++ chunk ++ rest)[delayed before.length chunk.length j]? = (before ++ rest)[j]? := by
  rw [List.append_assoc, delayed]
  split_ifs with hbefore
  · rw [List.getElem?_append_left hbefore, List.getElem?_append_left hbefore]
  · rw [List.getElem?_append_right (by omega), List.getElem?_append_right (by omega),
      List.getElem?_append_right (by omega)]
    congr 1
    omega

theorem getElem?_inserted (before rest : List α) {chunk : List α} (h : k < chunk.length) :
    (before ++ chunk ++ rest)[before.length + k]? = chunk[k]? := by
  rw [List.append_assoc, List.getElem?_append_right (Nat.le_add_right _ _),
    Nat.add_sub_cancel_left, List.getElem?_append_left h]

end Insertion

/-- The candidate with `size` lines inserted at a line of the text. -/
def Candidate.delayed (place size : Nat) (c : Candidate) : Candidate :=
  { c with line := Insertion.delayed place size c.line }

section Insert

variable {t : Source} {i : Nat} {chunk : List (List Char)} {q : Query} {d : Dialect}
  {tier : Tier} {j k : Nat} {r : ByteRange}

theorem lines_delayed (t : Source) (i : Nat) (chunk : List (List Char)) (j : Nat) :
    (t.insert i chunk).lines[delayed (t.lines.take i).length chunk.length j]? = t.lines[j]? := by
  have hget := getElem?_delayed (t.lines.take i) chunk (t.lines.drop i) j
  rwa [List.take_append_drop] at hget

theorem classes_insert (σ : CommentSyntax)
    (h : σ.BlankedIn (σ.regionAfter .outside (t.lines.take i)) chunk) :
    σ.classes (t.insert i chunk).lines = σ.classes (t.lines.take i) ++
      (σ.scan (σ.regionAfter .outside (t.lines.take i)) chunk).map (·.1) ++
      (σ.scan (σ.regionAfter .outside (t.lines.take i)) (t.lines.drop i)).map (·.1) := by
  rw [Source.insert, List.append_assoc, CommentSyntax.classes_append, CommentSyntax.scan_append,
    h.region, List.map_append, List.append_assoc]

theorem classes_delayed (σ : CommentSyntax)
    (h : σ.BlankedIn (σ.regionAfter .outside (t.lines.take i)) chunk) (j : Nat) :
    (σ.classes (t.insert i chunk).lines)[delayed (t.lines.take i).length chunk.length j]? =
      (σ.classes t.lines)[j]? := by
  have hsplit := σ.classes_append (t.lines.take i) (t.lines.drop i)
  rw [List.take_append_drop] at hsplit
  have hget := getElem?_delayed (σ.classes (t.lines.take i))
    ((σ.scan (σ.regionAfter .outside (t.lines.take i)) chunk).map (·.1))
    ((σ.scan (σ.regionAfter .outside (t.lines.take i)) (t.lines.drop i)).map (·.1)) j
  rw [CommentSyntax.length_classes, List.length_map, CommentSyntax.length_scan] at hget
  rw [classes_insert σ h, hsplit, hget]

theorem line_lt_of_locate? {p : Position} (h : locate? t q d = some p) : p.line < t.size := by
  obtain ⟨c, hc, rfl⟩ := Option.map_eq_some_iff.1 h
  obtain ⟨text, code, hline, -⟩ := (findCandidate?_eq_some_iff.1 hc).1
  exact (List.getElem?_eq_some_iff.1 hline).1

section Match

variable (h : d.comments.BlankedIn (d.comments.regionAfter .outside (t.lines.take i)) chunk)

include h

theorem matchesAt_delayed :
    MatchesAt (t.insert i chunk) q d tier (delayed (t.lines.take i).length chunk.length j) r ↔
      MatchesAt t q d tier j r := by
  unfold MatchesAt
  rw [lines_delayed, classes_delayed d.comments h]

theorem not_matchesAt_inserted (hq : q.Trimmed) (hk : k < chunk.length) :
    ¬ MatchesAt (t.insert i chunk) q d tier ((t.lines.take i).length + k) r := by
  rintro ⟨text, code, hline, hclass, -, hmatch⟩
  have hlen : k < ((d.comments.scan (d.comments.regionAfter .outside (t.lines.take i)) chunk).map
      (·.1)).length := by
    rwa [List.length_map, CommentSyntax.length_scan]
  rw [classes_insert d.comments h, ← d.comments.length_classes, getElem?_inserted _ _ hlen,
    List.getElem?_map] at hclass
  obtain ⟨step, hstep, hcode⟩ := Option.map_eq_some_iff.1 hclass
  have htext : chunk[k]? = some text := by
    rw [← hline]
    exact (getElem?_inserted _ _ hk).symm
  have hblanked := List.forall₂_zip h.steps
    (List.mem_of_getElem? (List.getElem?_zip_eq_some.2 ⟨htext, hstep⟩))
  rw [hcode] at hblanked
  rw [SearchPlan.matchTier?_of_blanked hq hblanked] at hmatch
  cases hmatch

/-- Every match in the longer text is one in the shorter text, delayed. -/
theorem exists_of_matchesAt_insert (hq : q.Trimmed)
    (hm : MatchesAt (t.insert i chunk) q d tier j r) :
    ∃ k, j = delayed (t.lines.take i).length chunk.length k ∧ MatchesAt t q d tier k r := by
  rcases inserted_or_delayed (t.lines.take i).length chunk.length j with ⟨k, hk, rfl⟩ | ⟨k, rfl⟩
  · exact absurd hm (not_matchesAt_inserted h hq hk)
  · exact ⟨k, rfl, (matchesAt_delayed h).1 hm⟩

theorem findCandidate?_insert (hq : q.Trimmed) :
    findCandidate? (t.insert i chunk) q d =
      (findCandidate? t q d).map (·.delayed (t.lines.take i).length chunk.length) := by
  apply Option.ext
  intro c
  rw [Option.map_eq_some_iff]
  -- Delaying keeps the order of lines, so a first match stays first both ways.
  constructor
  · intro hc
    obtain ⟨hmatch, hfirst, hbetter⟩ := findCandidate?_eq_some_iff.1 hc
    obtain ⟨k, hk, hmatch'⟩ := exists_of_matchesAt_insert h hq hmatch
    refine ⟨⟨k, c.range, c.tier⟩, findCandidate?_eq_some_iff.2 ⟨hmatch', ?_, ?_⟩, ?_⟩
    · intro j hj r hm
      refine hfirst _ ?_ r ((matchesAt_delayed h).2 hm)
      rw [hk]
      exact delayed_lt_delayed hj
    · intro tier hrank j r hm
      exact hbetter tier hrank _ r ((matchesAt_delayed h).2 hm)
    · rw [Candidate.delayed, ← hk]
  · rintro ⟨c, hc, rfl⟩
    obtain ⟨hmatch, hfirst, hbetter⟩ := findCandidate?_eq_some_iff.1 hc
    refine findCandidate?_eq_some_iff.2 ⟨(matchesAt_delayed h).2 hmatch, ?_, ?_⟩
    · intro j hj r hm
      obtain ⟨k, rfl, hm'⟩ := exists_of_matchesAt_insert h hq hm
      exact hfirst k (lt_of_delayed_lt hj) r hm'
    · intro tier hrank j r hm
      obtain ⟨k, -, hm'⟩ := exists_of_matchesAt_insert h hq hm
      exact hbetter tier hrank k r hm'

theorem locate?_insert (hq : q.Trimmed) :
    locate? (t.insert i chunk) q d = (locate? t q d).map fun p =>
      ⟨delayed (t.lines.take i).length chunk.length p.line, p.column⟩ := by
  rw [locate?, locate?, findCandidate?_insert h hq, Option.map_map, Option.map_map]
  congr 1
  funext c
  simp only [Function.comp, Candidate.delayed, Source.line?, lines_delayed]

end Match

end Insert

/-- In the dialects in stock, comments inserted anywhere, whatever they say, move the place that
a query finds along with its line and change nothing else. -/
theorem locate?_insert_comments (kind : DialectKind) (name : List Char)
    (hint : Option (List Char)) (mode : SearchMode) (q : Query)
    (hq : Query.ofText name hint mode = .ok q) (t : Source) (i : Nat) (chunk : List (List Char))
    (hc : kind.dialect.comments.Chunk
      (kind.dialect.comments.regionAfter .outside (t.lines.take i)) chunk) :
    locate? (t.insert i chunk) q kind.dialect = (locate? t q kind.dialect).map fun p =>
      if p.line < i then p else ⟨p.line + chunk.length, p.column⟩ := by
  have hblanked := hc.blankedIn kind.dialect.comments_delimited kind.distinct_comments
  rw [locate?_insert hblanked (Query.trimmed_of_ofText hq)]
  apply Option.map_congr
  intro p hp
  have hlt := line_lt_of_locate? hp
  rw [Source.size] at hlt
  rw [delayed, List.length_take]
  split_ifs <;> first | rfl | omega

theorem locate?_insert_comments_keyword :
    ∃ q, Query.ofText " run".toList (some "run(x) ".toList) .usage = .ok q ∧
      locate? (Source.insert ⟨["def run(x)", "  run(x)", "end"].map String.toList⟩ 1
        (["=begin run(x)", "run(x)", "=end run"].map String.toList)) q
        DialectKind.keyword.dialect = some ⟨4, 2⟩ := by
  let q : Query := ⟨"run".toList, some "run(x)".toList, .usage, by decide, by simp⟩
  let t : Source := ⟨["def run(x)", "  run(x)", "end"].map String.toList⟩
  let σ := DialectKind.keyword.dialect.comments
  have hq : Query.ofText " run".toList (some "run(x) ".toList) .usage = .ok q := rfl
  have hregion : σ.regionAfter .outside (t.lines.take 1) = .outside := by decide
  have hc : σ.Chunk .outside (([] ++ σ.blockOpen ++ " run(x)".toList) ::
      (["run(x)".toList] ++ ["=end run".toList])) :=
    .block rfl (by decide) (by decide) (by decide) (by decide) (by decide)
  have hfound : locate? t q DialectKind.keyword.dialect = some ⟨1, 2⟩ := by decide +kernel
  have hmoved := locate?_insert_comments .keyword _ _ _ q hq t 1 _ (hregion.symm ▸ hc)
  rw [hfound] at hmoved
  exact ⟨q, hq, hmoved⟩

end CodeSpan
