import CodeSpan.Proofs.ResolveOutcome
import CodeSpan.Proofs.ShownPlace

/-!
# Agreement of the commands

Every command opens its file in the same way, and locating and resolving ask the same question
of it. So the place that locating prints can be given to extracting, which then prints the block
that resolving puts into its prompt, or fails with the same line as resolving does, or stops as
resolving does.
-/

namespace CodeSpan

theorem Tree.mem_of_content? {t : Tree} {l : Location} {content : ByteArray}
    (h : t.content? l = some content) : (l, .file content) ∈ t.entries := by
  unfold content? entryAt? at h
  split at h
  · next c heq =>
      split_ifs at heq with hl
      · cases heq
      obtain ⟨⟨m, e⟩, hfind, rfl⟩ := Option.map_eq_some_iff.1 heq
      cases h
      have hm : m = l := by simpa using List.find?_some hfind
      exact hm ▸ List.mem_of_find?_eq_some hfind
  · cases h

namespace Command

variable {colours : Bool} {clipboard : Clipboard} {tree : Tree} {current : Location} {o : Options}
  {file name : List Char} {hint purpose : Option (List Char)} {mode : SearchMode}
  {args : List (List Char)} {l : Loaded} {q : Query} {p : Position} {f : Failure} {raw copy : Bool}

/-- The file that an input names, opened with the settings of the options. -/
def opened (tree : Tree) (current : Location) (o : Options) (file : List Char) :
    Except Failure Loaded := do
  let directory := o.workspace.getD current.path
  let s ← orFault id (Settings.ofOptions directory o.dialect o.window)
  load ⟨tree, current, directory⟩ s file

/-- The opened file, with the query to ask of it. -/
def queried (tree : Tree) (current : Location) (o : Options) (file name : List Char)
    (hint : Option (List Char)) (mode : SearchMode) : Except Failure (Loaded × Query) := do
  let l ← opened tree current o file
  let q ← orFault .query (Query.ofText name hint mode)
  pure (l, q)

section Attempts

variable {α β : Type}

theorem lift_ok_bind (a : α) (g : α → Attempt β) :
    (liftM (Except.ok a : Except Failure α) >>= g : Attempt β) = g a := rfl

theorem lift_error_bind (f : Failure) (g : α → Attempt β) :
    (liftM (Except.error f : Except Failure α) >>= g : Attempt β) = throw f := rfl

theorem lift_some_bind (a : α) (g : α → Attempt β) :
    (liftM (some a) >>= g : Attempt β) = g a := rfl

theorem lift_none_bind (g : α → Attempt β) :
    (liftM (none : Option α) >>= g : Attempt β).run = none := rfl

end Attempts

theorem opened_bind {α : Type} (g : Loaded → Attempt α) :
    (opened tree current o file >>= fun l => g l : Attempt α) = (do
      let s ← orFault id (Settings.ofOptions (o.workspace.getD current.path) o.dialect o.window)
      let l ← load ⟨tree, current, o.workspace.getD current.path⟩ s file
      g l) := by
  simp only [opened, liftM_bind, bind_assoc]

theorem queried_bind {α : Type} (g : Loaded × Query → Attempt α) :
    (queried tree current o file name hint mode >>= fun x => g x : Attempt α) = (do
      let s ← orFault id (Settings.ofOptions (o.workspace.getD current.path) o.dialect o.window)
      let l ← load ⟨tree, current, o.workspace.getD current.path⟩ s file
      let q ← orFault .query (Query.ofText name hint mode)
      g (l, q)) := by
  simp only [queried, opened, liftM_bind, liftM_pure, bind_assoc, pure_bind]

theorem execute_locate :
    execute clipboard tree current ⟨o, .locate file name hint mode raw⟩ = (do
      let (l, q) ← queried tree current o file name hint mode
      match locate? l.source q l.dialect with
      | some p => return ⟨location l.file.display p raw ++ ['\n'], []⟩
      | none => throw ⟨notFoundReport name l.file.display, .resolve (.notFound name)⟩) := by
  rw [queried_bind]
  rfl

theorem execute_resolve :
    execute clipboard tree current ⟨o, .resolve file name hint mode purpose copy⟩ = (do
      let (l, q) ← queried tree current o file name hint mode
      match ← CodeSpan.resolve l.source q l.dialect with
      | .ok r =>
          return deliver clipboard copy (preview l.file.display r.span)
            (prompt purpose r.span.text)
      | .error (.notFound name) =>
          throw ⟨notFoundReport name l.file.display, .resolve (.notFound name)⟩
      | .error e => throw ⟨[], .resolve e⟩) := by
  rw [queried_bind]
  rfl

theorem execute_extract (line column : Nat) :
    execute clipboard tree current ⟨o, .extract file (line + 1) (column + 1)⟩ = (do
      let l ← opened tree current o file
      match ← CodeSpan.extract l.source line l.dialect with
      | .ok span => return ⟨span.text ++ ['\n'], []⟩
      | .error e => throw ⟨[], .extract e⟩) := by
  rw [opened_bind]
  rfl

theorem queried_eq_ok_iff : queried tree current o file name hint mode = .ok (l, q) ↔
    opened tree current o file = .ok l ∧ Query.ofText name hint mode = .ok q := by
  unfold queried
  cases opened tree current o file with
  | error f => simp [bind, Except.bind]
  | ok l' =>
      cases Query.ofText name hint mode with
      | error e => simp [bind, Except.bind, orFault, Except.mapError]
      | ok q' => simp [bind, Except.bind, orFault, Except.mapError, pure, Except.pure]

theorem execute_of_unqueried (h : queried tree current o file name hint mode = .error f) :
    (execute clipboard tree current ⟨o, .locate file name hint mode raw⟩).run =
        some (.error f) ∧
      (execute clipboard tree current ⟨o, .resolve file name hint mode purpose copy⟩).run =
        some (.error f) := by
  rw [execute_locate, execute_resolve, h, lift_error_bind, lift_error_bind]
  exact ⟨rfl, rfl⟩

theorem execute_locate_of_located (h : queried tree current o file name hint mode = .ok (l, q))
    (hp : locate? l.source q l.dialect = some p) :
    (execute clipboard tree current ⟨o, .locate file name hint mode false⟩).run =
      some (.ok ⟨shownPlace l.file.display (p.line + 1) (p.column + 1), []⟩) := by
  rw [execute_locate, h, lift_ok_bind, ← location_eq_shownPlace]
  dsimp only
  rw [hp]
  rfl

theorem execute_of_unlocated (h : queried tree current o file name hint mode = .ok (l, q))
    (hp : locate? l.source q l.dialect = none) :
    let failure : Failure := ⟨notFoundReport name l.file.display, .resolve (.notFound name)⟩
    (execute clipboard tree current ⟨o, .locate file name hint mode raw⟩).run =
        some (.error failure) ∧
      ∃ f, (execute clipboard tree current ⟨o, .resolve file name hint mode purpose copy⟩).run =
        some (.error f) := by
  intro failure
  have hr := resolve_eq_notFound_iff.2 ⟨hp, rfl⟩
  rw [execute_locate, execute_resolve, h, lift_ok_bind, lift_ok_bind]
  dsimp only
  rw [hp, hr, lift_some_bind]
  exact ⟨rfl, _, rfl⟩

/-- From a located place extracting and resolving both give the same block, or fail with the same
message, or stop the program. -/
theorem execute_at_located (clipboard : Clipboard)
    (h : queried tree current o file name hint mode = .ok (l, q))
    (hp : locate? l.source q l.dialect = some p) (column : Nat) (purpose : Option (List Char)) :
    let extracting := execute clipboard tree current ⟨o, .extract file (p.line + 1) (column + 1)⟩
    let resolving :=
      execute clipboard tree current ⟨o, .resolve file name hint mode purpose false⟩
    (∃ span, extracting.run = some (.ok ⟨span.text ++ ['\n'], []⟩) ∧
      resolving.run = some (.ok ⟨prompt purpose span.text, preview l.file.display span⟩)) ∨
    (∃ e, extracting.run = some (.error ⟨[], .extract e⟩) ∧
      resolving.run = some (.error ⟨[], .resolve (.extract e)⟩)) ∨
    extracting.run = none ∧ resolving.run = none ∧
      CodeSpan.extract l.source p.line l.dialect = none := by
  intro extracting resolving
  have hextracting : extracting = _ := execute_extract p.line column
  have hresolving : resolving = _ := execute_resolve
  rw [(queried_eq_ok_iff.1 h).1, lift_ok_bind] at hextracting
  rw [h, lift_ok_bind] at hresolving
  dsimp only at hresolving
  rw [hextracting, hresolving]
  rcases resolve_of_locate? hp with ⟨span, he, hr⟩ | ⟨e, he, hr⟩ | ⟨he, hr⟩
  · rw [he, hr, lift_some_bind, lift_some_bind]
    exact .inl ⟨span, rfl, rfl⟩
  · rw [he, hr, lift_some_bind, lift_some_bind]
    exact .inr (.inl ⟨e, rfl, rfl⟩)
  · rw [he, hr, lift_none_bind, lift_none_bind]
    exact .inr (.inr ⟨rfl, rfl, rfl⟩)

theorem exists_content_of_opened (h : opened tree current o file = .ok l) :
    ∃ location content text, tree.content? location = some content ∧
      readText? content = some text ∧ l.source = .ofText text := by
  obtain ⟨s, -, h⟩ := bind_eq_ok_iff.1 h
  unfold load at h
  split at h
  · next found hfound =>
      split at h
      · cases h
      · next text htext =>
          obtain ⟨content, hcontent, hread⟩ := Option.bind_eq_some_iff.1 htext
          obtain ⟨d, -, h⟩ := bind_eq_ok_iff.1 h
          cases h
          exact ⟨found.location, content, text, hcontent, hread, rfl⟩
  · cases h

theorem window_of_opened {size : Nat} (h : opened tree current o file = .ok l)
    (hf : l.dialect.fallback = .window size) :
    o.window = some size ∨ ∃ kind : DialectKind, kind.dialect.fallback = .window size := by
  obtain ⟨s, hs, h⟩ := bind_eq_ok_iff.1 h
  have hwindow : s.window = o.window := by
    unfold Settings.ofOptions at hs
    split_ifs at hs
    · cases hs
    · cases hs
      rfl
  unfold load at h
  split at h
  · next found _ =>
      split at h
      · cases h
      · obtain ⟨d, hd, h⟩ := bind_eq_ok_iff.1 h
        cases h
        unfold Settings.dialectFor at hd
        split at hd
        · cases hd
        · next kind _ =>
            split at hd
            · cases hd
              exact .inr ⟨kind, hf⟩
            · next n hn =>
                cases hw : kind.dialect.withFallback (.window n) with
                | error e =>
                    rw [hw] at hd
                    cases hd
                | ok d' =>
                    rw [hw] at hd
                    cases hd
                    rw [Dialect.fallback_withFallback hw] at hf
                    cases hf
                    exact .inl (hwindow.symm.trans hn)
  · cases h

theorem locate_cases (clipboard : Clipboard) (tree : Tree) (current : Location) (o : Options)
    (file name : List Char) (hint : Option (List Char)) (mode : SearchMode)
    (purpose : Option (List Char)) :
    let locating := execute clipboard tree current ⟨o, .locate file name hint mode false⟩
    (∃ l q p, queried tree current o file name hint mode = .ok (l, q) ∧
      locate? l.source q l.dialect = some p ∧
      locating.run = some (.ok ⟨shownPlace l.file.display (p.line + 1) (p.column + 1), []⟩)) ∨
    ∃ f g, locating.run = some (.error f) ∧
      (execute clipboard tree current ⟨o, .resolve file name hint mode purpose false⟩).run =
        some (.error g) := by
  intro locating
  cases hq : queried tree current o file name hint mode with
  | error f =>
      obtain ⟨hlocate, hresolve⟩ := execute_of_unqueried hq
      exact .inr ⟨f, f, hlocate, hresolve⟩
  | ok x =>
      obtain ⟨l, q⟩ := x
      cases hp : locate? l.source q l.dialect with
      | some p => exact .inl ⟨l, q, p, rfl, hp, execute_locate_of_located hq hp⟩
      | none =>
          obtain ⟨hlocate, g, hresolve⟩ := execute_of_unlocated hq hp
          exact .inr ⟨_, g, hlocate, hresolve⟩

theorem run_of_parse {r : Request} (colours : Bool) (clipboard : Clipboard) (tree : Tree)
    (current : Location) (h : parse args = .ok r) :
    run colours clipboard tree current args =
      (execute clipboard tree current r).run.map (.ofResult colours) := by
  rw [run, h]

theorem output_of_run {outcome : Outcome}
    (h : run colours clipboard tree current args = some outcome) (hcode : outcome.code = 1) :
    outcome.output = [] := by
  unfold run at h
  split at h
  · cases h
    rfl
  · cases h
    cases hcode
  · cases h
    cases hcode
  · obtain ⟨result, -, rfl⟩ := Option.map_eq_some_iff.1 h
    cases result with
    | error f => rfl
    | ok s => cases hcode

/-- The printed place of a name in a file that fits in memory can be given to extracting. -/
theorem exists_parse_extract (hfits : Request.Fits ⟨o, .locate file name hint mode raw⟩)
    (hq : queried tree current o file name hint mode = .ok (l, q))
    (hp : locate? l.source q l.dialect = some p)
    (hsize : ∀ location content, tree.content? location = some content →
      content.size + 1 < UInt64.size) :
    ∃ extracting, parse extracting = .ok ⟨o, .extract file (p.line + 1) (p.column + 1)⟩ := by
  obtain ⟨location, content, text, hcontent, hread, hsource⟩ :=
    exists_content_of_opened (queried_eq_ok_iff.1 hq).1
  rw [hsource] at hp
  obtain ⟨hline, hcolumn⟩ := le_of_locate? hp
  have hlt := hsize location content hcontent
  rw [← byteLength_of_readText? hread] at hlt
  refine exists_parse_iff.2 ⟨hfits.workspace_ne, hfits.window_lt, ?_⟩
  rintro file' line' column' heq
  cases heq
  exact ⟨by omega, by omega⟩

/-- Extracting prints the block that resolving puts into its prompt, up to blanks at its end, or
both report the same fault. -/
def SameBlock (colours : Bool) (purpose : Option (List Char)) (extracted resolved : Outcome) :
    Prop :=
  (extracted.code = 0 ∧ resolved.code = 0 ∧ resolved.output =
    purposeFence purpose ++ fenced "code".toList (Text.trimEnd extracted.output)) ∨
  (extracted.code = 1 ∧ resolved.code = 1 ∧ ∃ fault,
    extracted.messages = renderLine colours (faultLine fault) ∧
    resolved.messages = renderLine colours (faultLine fault))

theorem runs_agree {extracting resolving : List (List Char)} (colours : Bool)
    (clipboard : Clipboard) (hq : queried tree current o file name hint mode = .ok (l, q))
    (hp : locate? l.source q l.dialect = some p)
    (hextract : parse extracting = .ok ⟨o, .extract file (p.line + 1) (p.column + 1)⟩)
    (hresolve : parse resolving = .ok ⟨o, .resolve file name hint mode purpose false⟩) :
    let outcome := run colours clipboard tree current
    (∃ extracted resolved, outcome extracting = some extracted ∧
      outcome resolving = some resolved ∧ SameBlock colours purpose extracted resolved) ∨
    outcome extracting = none ∧ outcome resolving = none ∧ ∃ size,
      (o.window = some size ∨ ∃ kind : DialectKind, kind.dialect.fallback = .window size) ∧
        UInt64.size < p.line + 1 + size := by
  intro outcome
  have hextracting : outcome extracting = _ :=
    run_of_parse colours clipboard tree current hextract
  have hresolving : outcome resolving = _ := run_of_parse colours clipboard tree current hresolve
  rw [hextracting, hresolving]
  rcases execute_at_located clipboard hq hp p.column purpose with
    ⟨span, he, hr⟩ | ⟨e, he, hr⟩ | ⟨he, hr, hstopped⟩
  · rw [he, hr]
    refine .inl ⟨_, _, rfl, rfl, .inl ⟨rfl, rfl, ?_⟩⟩
    simp only [Outcome.ofResult]
    rw [prompt_eq, Text.trimEnd_append_newline]
  · rw [he, hr]
    have hline (fault : Fault) : renderLines colours ([] ++ [faultLine fault]) =
        renderLine colours (faultLine fault) := List.flatMap_singleton _ _
    exact .inl ⟨_, _, rfl, rfl,
      .inr ⟨rfl, rfl, .extract e, hline _, hline (.resolve (.extract e))⟩⟩
  · rw [he, hr]
    obtain ⟨-, -, size, hf, hover⟩ := extract_eq_none_iff.1 hstopped
    have hwindow := window_of_opened (queried_eq_ok_iff.1 hq).1 hf
    exact .inr ⟨rfl, rfl, size, hwindow, by omega⟩

/-- The three commands agree. Whatever way a locating command line is written, resolving takes the
same options and arguments, and fails if locating does. If locating prints a place, extracting can
be told that place, and then extracting and resolving both print the same block, up to blanks at
its end, or both report the same fault, or both stop the program, which takes a window that
reaches from the place beyond the largest word. -/
theorem commands_agree (colours : Bool) (clipboard : Clipboard) (tree : Tree) (current : Location)
    (o : Options) (file name : List Char) (hint : Option (List Char)) (mode : SearchMode)
    (purpose : Option (List Char)) (locating : List (List Char))
    (h : parse locating = .ok ⟨o, .locate file name hint mode false⟩) :
    let outcome := run colours clipboard tree current
    ∃ located, outcome locating = some located ∧
      (∃ resolving, parse resolving = .ok ⟨o, .resolve file name hint mode purpose false⟩) ∧
      (located.code = 1 ∨ located.code = 0 ∧
        ∃ path line column, located.output = shownPlace path line column) ∧
      (∀ resolving, parse resolving = .ok ⟨o, .resolve file name hint mode purpose false⟩ →
        (located.code = 1 → ∃ resolved, outcome resolving = some resolved ∧ resolved.code = 1) ∧
        ∀ path line column, located.code = 0 → located.output = shownPlace path line column →
          ((∀ location content, tree.content? location = some content →
            content.size + 1 < UInt64.size) →
            ∃ extracting, parse extracting = .ok ⟨o, .extract file line column⟩) ∧
          ∀ extracting, parse extracting = .ok ⟨o, .extract file line column⟩ →
            (∃ extracted resolved, outcome extracting = some extracted ∧
              outcome resolving = some resolved ∧ SameBlock colours purpose extracted resolved) ∨
            outcome extracting = none ∧ outcome resolving = none ∧ ∃ size,
              (o.window = some size ∨ ∃ kind : DialectKind, kind.dialect.fallback = .window size) ∧
                UInt64.size < line + size) ∧
      ∀ args ended, outcome args = some ended → ended.code = 1 → ended.output = [] := by
  intro outcome
  have hfits := exists_parse_iff.1 ⟨locating, h⟩
  have hresolve : ∃ resolving,
      parse resolving = .ok ⟨o, .resolve file name hint mode purpose false⟩ :=
    exists_parse_iff.2 ⟨hfits.workspace_ne, hfits.window_lt, fun _ _ _ heq => by cases heq⟩
  have hlocating : outcome locating = _ := run_of_parse colours clipboard tree current h
  rcases locate_cases clipboard tree current o file name hint mode purpose with
    ⟨l, q, p, hq, hp, hrun⟩ | ⟨f, g, hrun, hfails⟩
  · rw [hrun] at hlocating
    refine ⟨_, hlocating, hresolve, .inr ⟨rfl, _, _, _, rfl⟩, fun resolving hresolving => ?_,
      fun _ _ => output_of_run⟩
    refine ⟨fun hcode => (by cases hcode), fun path line column _ hplace => ?_⟩
    obtain ⟨-, rfl, rfl⟩ := shownPlace_inj.1 hplace
    exact ⟨exists_parse_extract hfits hq hp, fun extracting hextracting =>
      runs_agree colours clipboard hq hp hextracting hresolving⟩
  · rw [hrun] at hlocating
    refine ⟨_, hlocating, hresolve, .inl rfl, fun resolving hresolving => ?_,
      fun _ _ => output_of_run⟩
    have hfailing : outcome resolving = _ :=
      run_of_parse colours clipboard tree current hresolving
    rw [hfails] at hfailing
    exact ⟨fun _ => ⟨_, hfailing, rfl⟩, fun path line column hcode => by cases hcode⟩

theorem commands_agree_brace :
    let tree := (Tree.empty.addFile? ["a.c".toList] "g();\nf() \x7b\n\x7d\n".toUTF8).getD .empty
    let outcome (args : List String) := run false (fun _ => .ok ()) tree [] (args.map String.toList)
    (∃ located, outcome ["locate", "a.c", "f"] = some located ∧
      located.output = shownPlace "a.c".toList 2 1) ∧
    (∃ extracting, parse extracting = .ok ⟨⟨none, none, none⟩, .extract "a.c".toList 2 1⟩) ∧
    ∃ extracted resolved, outcome ["extract", "-l", "2", "a.c"] = some extracted ∧
      outcome ["resolve", "a.c", "--", "f"] = some resolved ∧
      extracted.output = "f() \x7b\n\x7d\n".toList ∧
      resolved.output = fenced "code".toList (Text.trimEnd extracted.output) := by
  intro tree outcome
  have hplaced : outcome ["locate", "a.c", "f"] = some ⟨0, shownPlace "a.c".toList 2 1, []⟩ := by
    decide +kernel
  have hprinted : outcome ["extract", "-l", "2", "a.c"] =
      some ⟨0, "f() \x7b\n\x7d\n".toList, []⟩ := by decide +kernel
  have hsize : ∀ location content, tree.content? location = some content →
      content.size + 1 < UInt64.size := by
    intro location content h
    have hentry : (location, Entry.file content) =
        (["a.c".toList], .file "g();\nf() \x7b\n\x7d\n".toUTF8) :=
      List.mem_singleton.1 (Tree.mem_of_content? h)
    rw [Entry.file.inj (Prod.mk.inj hentry).2]
    decide +kernel
  obtain ⟨located, hlocated, -, -, hagree, -⟩ := commands_agree false (fun _ => .ok ()) tree []
    ⟨none, none, none⟩ "a.c".toList "f".toList none .usage none
    (["locate", "a.c", "f"].map String.toList) rfl
  obtain rfl := Option.some.inj (hplaced.symm.trans hlocated)
  obtain ⟨-, hplace⟩ := hagree (["resolve", "a.c", "--", "f"].map String.toList) rfl
  obtain ⟨hexists, hruns⟩ := hplace "a.c".toList 2 1 rfl rfl
  refine ⟨⟨_, hplaced, rfl⟩, hexists hsize, ?_⟩
  rcases hruns (["extract", "-l", "2", "a.c"].map String.toList) rfl with
    ⟨extracted, resolved, hextracted, hresolved, hsame⟩ | ⟨hstopped, -⟩
  · obtain rfl := Option.some.inj (hprinted.symm.trans hextracted)
    rcases hsame with ⟨-, -, hsame⟩ | ⟨hcode, -⟩
    · exact ⟨_, resolved, hprinted, hresolved, rfl, hsame⟩
    · cases hcode
  · cases hprinted.symm.trans hstopped

/-- On the third line a name is located, but neither of the other commands has an outcome with
the largest window. -/
theorem not_commands_agree :
    let tree := (Tree.empty.addFile? ["a.c".toList] "a\nb\nf".toUTF8).getD .empty
    let outcome (args : List String) := run false (fun _ => .ok ()) tree []
      (["--window", "18446744073709551615"].map String.toList ++ args.map String.toList)
    outcome ["locate", "a.c", "f"] = some ⟨0, "a.c:3:1\n".toList, []⟩ ∧
      outcome ["extract", "-l", "3", "-c", "1", "a.c"] = none ∧
      outcome ["resolve", "a.c", "f"] = none := by
  intro tree outcome
  refine ⟨?_, ?_, ?_⟩ <;> decide +kernel

end Command

end CodeSpan
