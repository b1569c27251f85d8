import CodeSpan.Display.Report
import CodeSpan.Proofs.BlankedLine

/-!
# Reading a prompt back

A prompt tells at its beginning whether it has a purpose. A purpose is divided from the code by
the lines that close its fence and open the next one. Neither text is escaped, so the same lines
may stand in the purpose or in the code, and then a prompt may have several readings. It has a
single one exactly unless these lines stand a second time in it, where another purpose could end
and another code begin.
-/

namespace CodeSpan

namespace Text

variable {s t : List Char}

theorem trimStart_of_head? (h : s.head?.all isBlank = false) : trimStart s = s := by
  cases s with
  | nil => rfl
  | cons c s => exact List.dropWhile_cons_of_neg (by simpa using h)

theorem trimEnd_of_getLast? (h : s.getLast?.all isBlank = false) : trimEnd s = s := by
  rw [← List.head?_reverse] at h
  have hrev := trimStart_of_head? h
  rw [trimStart] at hrev
  rw [trimEnd, hrev, List.reverse_reverse]

theorem getLast?_trimEnd (h : trimEnd s ≠ []) : (trimEnd s).getLast?.all isBlank = false := by
  rw [trimEnd] at h ⊢
  rw [List.getLast?_reverse]
  exact head?_trimStart fun hnil => h (congrArg List.reverse hnil)

theorem trimEnd_of_suffix (hs : trimEnd s = s) (h : t <:+ s) : trimEnd t = t := by
  obtain ⟨u, rfl⟩ := h
  rcases eq_or_ne t [] with rfl | hne
  · rfl
  · have hlast := getLast?_trimEnd (s := u ++ t) (by simp [hs, hne])
    rw [hs, List.getLast?_append_of_ne_nil _ hne] at hlast
    exact trimEnd_of_getLast? hlast

theorem trimEnd_append (hne : t ≠ []) (ht : trimEnd t = t) : trimEnd (s ++ t) = s ++ t := by
  have hlast := getLast?_trimEnd (s := t) (by rwa [ht])
  rw [ht] at hlast
  exact trimEnd_of_getLast? (by rwa [List.getLast?_append_of_ne_nil _ hne])

theorem trimEnd_trimEnd (s : List Char) : trimEnd (trimEnd s) = trimEnd s := by
  rcases eq_or_ne (trimEnd s) [] with hnil | hne
  · rw [hnil]
    rfl
  · exact trimEnd_of_getLast? (getLast?_trimEnd hne)

theorem ne_nil_of_head? (h : s.head?.all isBlank = false) : s ≠ [] := by
  rintro rfl
  cases h

end Text

/-- The lines between a purpose and the code. -/
def divider : List Char :=
  "\n```\n\n```code\n".toList

def dividerStem : List Char :=
  "\n```\n\n```code".toList

variable {s s' t t' code code' : List Char} {purpose purpose' : Option (List Char)}

theorem divider_eq : divider = dividerStem ++ ['\n'] := rfl

theorem divider_append (t : List Char) : divider ++ t = dividerStem ++ '\n' :: t := by
  rw [divider_eq, List.append_assoc, List.singleton_append]

/-- The divider overlaps itself only with the line feeds at its ends. -/
theorem not_drop_divider_prefix :
    ∀ k < dividerStem.length, 0 < k → ¬ divider.drop k <+: divider := by
  decide

theorem exists_between_dividers (h : s ++ divider ++ t = s' ++ divider ++ t')
    (hlt : s.length < s'.length) :
    ∃ between, s' = s ++ dividerStem ++ between ∧ '\n' :: t = between ++ divider ++ t' := by
  rw [List.append_assoc, List.append_assoc] at h
  obtain ⟨lead, rfl, hlead⟩ | ⟨lead, rfl, -⟩ := List.append_eq_append_iff.1 h
  swap
  · rw [List.length_append] at hlt
    omega
  have hpos : 0 < lead.length := by
    rw [List.length_append] at hlt
    omega
  have hprefix : lead <+: divider ++ t := ⟨divider ++ t', hlead.symm⟩
  have hstem : dividerStem <+: divider ++ t := by
    rw [divider_append]
    exact List.prefix_append _ _
  have hle : dividerStem.length ≤ lead.length := by
    by_contra! hshort
    apply not_drop_divider_prefix lead.length hshort hpos
    have hdrop : divider.drop lead.length ++ t = divider ++ t' := by
      have hlen : lead.length ≤ divider.length := by
        rw [divider_eq, List.length_append]
        omega
      rw [← List.drop_append_of_le_length hlen, hlead, List.drop_left]
    refine List.prefix_of_prefix_length_le ⟨t, hdrop⟩ (List.prefix_append _ _) ?_
    rw [List.length_drop]
    omega
  obtain ⟨between, rfl⟩ := List.prefix_of_prefix_length_le hstem hprefix hle
  refine ⟨between, (List.append_assoc _ _ _).symm, ?_⟩
  rw [divider_append, List.append_assoc] at hlead
  rw [List.append_assoc]
  exact List.append_cancel_left hlead

theorem append_divider_eq {between : List Char} (h : '\n' :: t = between ++ divider ++ t') :
    s ++ divider ++ t = s ++ dividerStem ++ between ++ divider ++ t' := by
  rw [List.append_assoc, divider_append, h]
  simp only [List.append_assoc]

/-- The purpose that a prompt shows, if it shows one. -/
def shownPurpose (purpose : Option (List Char)) : Option (List Char) :=
  (purpose.map Text.trim).filter fun p => !p.isEmpty

/-- A text that begins and ends with characters that are not blank. -/
structure IsPurpose (s : List Char) : Prop where
  head : s.head?.all Text.isBlank = false
  last : s.getLast?.all Text.isBlank = false

theorem isPurpose_of_shownPurpose (h : shownPurpose purpose = some s) : IsPurpose s := by
  obtain ⟨hmap, hne⟩ := Option.filter_eq_some_iff.1 h
  obtain ⟨p, -, rfl⟩ := Option.map_eq_some_iff.1 hmap
  have hne : Text.trim p ≠ [] := by simpa using hne
  exact ⟨Text.head?_trim hne, Text.getLast?_trim hne⟩

theorem IsPurpose.shownPurpose_eq (h : IsPurpose s) : shownPurpose (some s) = some s := by
  have htrim : Text.trim s = s := by
    rw [Text.trim, Text.trimStart_of_head? h.head, Text.trimEnd_of_getLast? h.last]
  rw [shownPurpose, Option.map_some, htrim]
  exact Option.filter_eq_some_iff.2 ⟨rfl, by simpa using Text.ne_nil_of_head? h.head⟩

theorem IsPurpose.ne_nil (h : IsPurpose s) : s ≠ [] :=
  Text.ne_nil_of_head? h.head

theorem prompt_eq_lead (purpose : Option (List Char)) (code : List Char) :
    prompt purpose code =
      (match shownPurpose purpose with
        | none => []
        | some s => fenced "purpose".toList s ++ ['\n']) ++
      fenced "code".toList (Text.trimEnd code) :=
  rfl

theorem prompt_of_none (h : shownPurpose purpose = none) :
    prompt purpose code = "```code\n".toList ++ Text.trimEnd code ++ "\n```\n".toList := by
  rw [prompt_eq_lead, h]
  rfl

theorem fenced_append_fenced (s t : List Char) :
    fenced "purpose".toList s ++ ['\n'] ++ fenced "code".toList t =
      "```purpose\n".toList ++ (s ++ divider ++ t) ++ "\n```\n".toList := by
  have hlead : "```purpose\n".toList = "```".toList ++ "purpose".toList ++ ['\n'] := rfl
  have hdivider : divider =
      "\n```\n".toList ++ ['\n'] ++ "```".toList ++ "code".toList ++ ['\n'] := rfl
  rw [hlead, hdivider]
  simp only [fenced, List.append_assoc, List.cons_append, List.nil_append]

theorem prompt_of_some (h : shownPurpose purpose = some s) :
    prompt purpose code = "```purpose\n".toList ++
      (s ++ divider ++ Text.trimEnd code) ++ "\n```\n".toList := by
  rw [prompt_eq_lead, h, ← fenced_append_fenced]

/-- Prompts are equal when both show no purpose and the same code, or when both show a purpose
and the texts between their first and last fence are the same. -/
theorem prompt_eq_prompt_iff : prompt purpose code = prompt purpose' code' ↔
    (shownPurpose purpose = none ∧ shownPurpose purpose' = none ∧
      Text.trimEnd code = Text.trimEnd code') ∨
    ∃ s s', shownPurpose purpose = some s ∧ shownPurpose purpose' = some s' ∧
      s ++ divider ++ Text.trimEnd code = s' ++ divider ++ Text.trimEnd code' := by
  cases h : shownPurpose purpose with
  | none =>
      cases h' : shownPurpose purpose' with
      | none =>
          rw [prompt_of_none h, prompt_of_none h']
          simp
      | some s' =>
          rw [prompt_of_none h, prompt_of_some h']
          simp
  | some s =>
      cases h' : shownPurpose purpose' with
      | none =>
          rw [prompt_of_some h, prompt_of_none h']
          simp
      | some s' =>
          rw [prompt_of_some h, prompt_of_some h', List.append_left_inj, List.append_right_inj]
          simp

/-- The lines of the divider stand a second time in a prompt, where it could be parted as well:
in the purpose behind a character that is not blank, with code left to follow, or in the code
behind its beginning or such a character. -/
def DividesTwice (purpose : Option (List Char)) (code : List Char) : Prop :=
  ∃ s, shownPurpose purpose = some s ∧
    ((Text.trimEnd code ≠ [] ∧ ∃ before after, s ++ ['\n'] = before ++ divider ++ after ∧
        before.getLast?.all Text.isBlank = false) ∨
      ∃ before after, '\n' :: Text.trimEnd code = before ++ divider ++ after ∧
        (before = [] ∨ before.getLast?.all Text.isBlank = false))

theorem exists_between_of_earlier {before after : List Char}
    (h : s ++ ['\n'] = before ++ divider ++ after) :
    ∃ between, s = before ++ dividerStem ++ between ∧
      ∀ t, ∃ t', '\n' :: t' = between ++ divider ++ t := by
  rw [List.append_assoc, divider_append, ← List.append_assoc] at h
  have hs : s = before ++ dividerStem ++ ('\n' :: after).dropLast := by
    have hdrop := congrArg List.dropLast h
    rwa [List.dropLast_concat, List.dropLast_append_of_ne_nil (List.cons_ne_nil _ _)] at hdrop
  refine ⟨_, hs, fun t => ?_⟩
  cases after with
  | nil => exact ⟨divider.tail ++ t, rfl⟩
  | cons c after => exact ⟨(c :: after).dropLast ++ divider ++ t, rfl⟩

theorem suffix_of_divided {c : Char} {before after : List Char}
    (h : c :: t = before ++ divider ++ after) : after <:+ t := by
  have hsuffix : after <:+ c :: t := ⟨before ++ divider, h.symm⟩
  rcases List.suffix_cons_iff.1 hsuffix with rfl | htail
  · have hlen := congrArg List.length h
    have hdivider : 0 < divider.length := by decide
    simp only [List.length_append] at hlen
    omega
  · exact htail

theorem ne_append_dividerStem (s between : List Char) : s ≠ s ++ dividerStem ++ between := by
  intro h
  have hlen := congrArg List.length h
  have hstem : 0 < dividerStem.length := by decide
  simp only [List.length_append] at hlen
  omega

theorem DividesTwice.exists_other (h : DividesTwice purpose code) :
    ∃ purpose' code', prompt purpose' code' = prompt purpose code ∧
      shownPurpose purpose' ≠ shownPurpose purpose := by
  obtain ⟨s, hs, ⟨hcode, before, after, happ, hlast⟩ | ⟨before, after, happ, hlast⟩⟩ := h
  · obtain ⟨between, rfl, hrest⟩ := exists_between_of_earlier happ
    obtain ⟨code', hcode'⟩ := hrest (Text.trimEnd code)
    have hbefore : IsPurpose before := by
      refine ⟨?_, hlast⟩
      have hne : before ≠ [] := by
        rintro rfl
        cases hlast
      have hhead := (isPurpose_of_shownPurpose hs).head
      rwa [List.append_assoc, List.head?_append_of_ne_nil _ hne] at hhead
    have htrim : Text.trimEnd code' = code' := by
      obtain ⟨lead, hlead⟩ := suffix_of_divided hcode'
      rw [← hlead]
      exact Text.trimEnd_append hcode (Text.trimEnd_trimEnd code)
    refine ⟨some before, code', prompt_eq_prompt_iff.2 (.inr ⟨before, _,
      hbefore.shownPurpose_eq, hs, ?_⟩), ?_⟩
    · rw [htrim]
      exact append_divider_eq hcode'
    · rw [hbefore.shownPurpose_eq, hs, ne_eq, Option.some.injEq]
      exact ne_append_dividerStem before between
  · have hpurpose : IsPurpose (s ++ dividerStem ++ before) := by
      have hs' := isPurpose_of_shownPurpose hs
      constructor
      · rw [List.append_assoc, List.head?_append_of_ne_nil _ hs'.ne_nil]
        exact hs'.head
      · rcases eq_or_ne before [] with rfl | hne
        · rw [List.append_nil, List.getLast?_append_of_ne_nil _ (by decide)]
          decide
        · rw [List.getLast?_append_of_ne_nil _ hne]
          exact hlast.resolve_left hne
    have htrim : Text.trimEnd after = after :=
      Text.trimEnd_of_suffix (Text.trimEnd_trimEnd code) (suffix_of_divided happ)
    refine ⟨some (s ++ dividerStem ++ before), after, prompt_eq_prompt_iff.2 (.inr ⟨_, s,
      hpurpose.shownPurpose_eq, hs, ?_⟩), ?_⟩
    · rw [htrim]
      exact (append_divider_eq happ).symm
    · rw [hpurpose.shownPurpose_eq, hs, ne_eq, Option.some.injEq]
      exact (ne_append_dividerStem s before).symm

/-- A second reading of a prompt divides it a second time. -/
theorem dividesTwice_of_other (hs : shownPurpose purpose = some s)
    (hs' : shownPurpose purpose' = some s')
    (h : s ++ divider ++ Text.trimEnd code = s' ++ divider ++ Text.trimEnd code')
    (hne : s ≠ s') : DividesTwice purpose code := by
  have hp := isPurpose_of_shownPurpose hs
  have hp' := isPurpose_of_shownPurpose hs'
  refine ⟨s, hs, ?_⟩
  rcases Nat.lt_trichotomy s.length s'.length with hlt | heq | hlt
  · obtain ⟨between, rfl, hlate⟩ := exists_between_dividers h hlt
    refine .inr ⟨between, _, hlate, ?_⟩
    rcases eq_or_ne between [] with hnil | hbetween
    · exact .inl hnil
    · have hlast := hp'.last
      rw [List.getLast?_append_of_ne_nil _ hbetween] at hlast
      exact .inr hlast
  · rw [List.append_assoc, List.append_assoc] at h
    exact absurd (List.append_inj_left h heq) hne
  · obtain ⟨between, rfl, hearly⟩ := exists_between_dividers h.symm hlt
    obtain ⟨rest, hrest⟩ : ∃ rest, between ++ ['\n'] = '\n' :: rest := by
      cases between with
      | nil => exact ⟨[], rfl⟩
      | cons c between => exact ⟨between ++ ['\n'], by rw [← (List.cons.inj hearly).1]; rfl⟩
    refine .inl ⟨fun hnil => ?_, s', rest, ?_, hp'.last⟩
    · -- Otherwise the other code would end with the line feed of the divider.
      rw [hnil, List.append_nil] at hearly
      have hcode' : Text.trimEnd code' ≠ [] := by
        intro hcode
        have hlen := congrArg List.length hearly
        have hdivider : divider.length = 14 := rfl
        rw [hcode, List.length_append] at hlen
        simp only [List.length_cons, List.length_nil] at hlen
        omega
      have hlast := congrArg List.getLast? hearly
      rw [← List.singleton_append, List.getLast?_append_of_ne_nil _ hcode',
        List.getLast?_append_of_ne_nil between (by decide)] at hlast
      have hblank := Text.getLast?_trimEnd hcode'
      rw [hlast] at hblank
      cases hblank
    · rw [List.append_assoc, hrest, List.append_assoc, ← divider_append, ← List.append_assoc]

/-- A prompt tells whether it shows a purpose. All prompts that are the same show the same
purpose and the same code exactly unless they are divided twice. -/
theorem prompt_unambiguous (purpose : Option (List Char)) (code : List Char) :
    (∀ purpose' code', prompt purpose' code' = prompt purpose code →
      (shownPurpose purpose' = none ↔ shownPurpose purpose = none)) ∧
    ((∀ purpose' code', prompt purpose' code' = prompt purpose code →
      shownPurpose purpose' = shownPurpose purpose ∧
        Text.trimEnd code' = Text.trimEnd code) ↔ ¬ DividesTwice purpose code) := by
  refine ⟨fun purpose' code' h => ?_, fun hunique htwice => ?_,
    fun hsingle purpose' code' h => ?_⟩
  · rcases prompt_eq_prompt_iff.1 h with ⟨hnone', hnone, -⟩ | ⟨s', s, hs', hs, -⟩
    · exact iff_of_true hnone' hnone
    · simp [hs', hs]
  · obtain ⟨purpose', code', h, hne⟩ := htwice.exists_other
    exact hne (hunique purpose' code' h).1
  · rcases prompt_eq_prompt_iff.1 h with ⟨hnone', hnone, hcode⟩ | ⟨s', s, hs', hs, htexts⟩
    · exact ⟨hnone'.trans hnone.symm, hcode⟩
    · have heq : s = s' := by
        by_contra hne
        exact hsingle (dividesTwice_of_other hs hs' htexts.symm hne)
      subst heq
      rw [List.append_cancel_left_eq] at htexts
      exact ⟨hs'.trans hs.symm, htexts⟩

/-- One prompt for two purposes and two codes: the divider may belong to either. -/
theorem not_prompt_unambiguous :
    let purpose := "a".toList
    let code := "b\n```\n\n```code\nc".toList
    let purpose' := "a\n```\n\n```code\nb".toList
    let code' := "c".toList
    prompt (some purpose) code = prompt (some purpose') code' ∧
      Text.trim purpose ≠ Text.trim purpose' ∧ Text.trimEnd code ≠ Text.trimEnd code' := by
  decide

end CodeSpan
