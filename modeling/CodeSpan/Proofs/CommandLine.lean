import CodeSpan.Command.Arguments
import CodeSpan.Proofs.Failing
import CodeSpan.Text.Basic
import Mathlib.Data.List.TakeWhile

/-!
# Writing command lines

Every request that can be read from a command line has a written form: the name of the command,
its options with their values attached, and its arguments behind two dashes. Reading the written
form takes the options one by one and gives the request back. A request can be read at all
exactly when the working directory is not empty and its counts fit in 64 bits.
-/

namespace CodeSpan

namespace Text

theorem isDigit_of_mem_decimal {n : Nat} {c : Char} (h : c ∈ decimal n) : c.isDigit = true :=
  Nat.isDigit_of_mem_toDigits (by decide) (by decide) h

theorem decimal_injective {m n : Nat} (h : decimal m = decimal n) : m = n := by
  have hdigits := congrArg (Nat.ofDigitChars 10 · 0) h
  simpa [decimal] using hdigits

end Text

theorem DialectKind.ofName?_name (kind : DialectKind) : ofName? kind.name = some kind := by
  cases kind <;> rfl

namespace Command

variable {f : Flag} {value : List Char} {v : Verb} {p q : Progress} {r : Request}
  {args : List (List Char)} {n : Nat}

namespace Flag

/-- A count that fits in 64 bits is read back from its numeral. -/
theorem count?_decimal (h : n < UInt64.size) : count? (Text.decimal n) = some n := by
  obtain ⟨c, digits, hn⟩ := List.exists_cons_of_ne_nil (Nat.toDigits_ne_nil (n := n) (b := 10))
  have hall : (c :: digits).all Char.isDigit = true := by
    rw [List.all_eq_true, ← hn]
    exact fun c hc => Text.isDigit_of_mem_decimal hc
  have hplus : c ≠ '+' := by
    rintro rfl
    rw [List.all_cons] at hall
    cases hall
  have hvalue : (c :: digits).foldl (fun n d => 10 * n + (d.toNat - '0'.toNat)) 0 = n := by
    rw [← hn]
    exact Nat.ofDigitChars_ten_toDigits
  unfold count?
  rw [Text.decimal, hn]
  split
  · next heq =>
      cases heq
      exact absurd rfl hplus
  · dsimp only
    rw [hall, hvalue]
    exact if_pos h

theorem lt_of_count? {s : List Char} (h : count? s = some n) : n < UInt64.size := by
  unfold count? at h
  dsimp only at h
  split_ifs at h with _ hlt
  cases h
  exact hlt

/-- An option with its value attached. -/
def withValue (f : Flag) (value : List Char) : List Char :=
  '-' :: '-' :: (f.long ++ '=' :: value)

def alone (f : Flag) : List Char :=
  '-' :: '-' :: f.long

theorem find?_long {place : Option Verb} (h : f ∈ allowed place) :
    (allowed place).find? (fun g => g.long = f.long) = some f := by
  have hall : ∀ place : Option Verb, ∀ f ∈ allowed place,
      (allowed place).find? (fun g => g.long = f.long) = some f := by
    rintro (_ | _ | _ | _) <;> decide
  exact hall place f h

theorem long_plain (f : Flag) : ∀ c ∈ f.long, decide (c ≠ '=') = true := by
  have hall : f.long.all (fun c => decide (c ≠ '=')) = true := by cases f <;> decide
  exact List.all_eq_true.1 hall

theorem nodup_allowed (place : Option Verb) : (allowed place).Nodup := by
  rcases place with _ | _ | _ | _ <;> decide

end Flag

namespace Progress

theorem addLong_withValue (hallowed : f ∈ Flag.allowed p.verb) (htakes : f.takesValue = true) :
    p.addLong (f.long ++ '=' :: value) = p.addValue f value := by
  unfold addLong
  have htake : (f.long ++ '=' :: value).takeWhile (· ≠ '=') = f.long := by
    rw [List.takeWhile_append_of_pos f.long_plain]
    simp
  have hdrop : (f.long ++ '=' :: value).dropWhile (· ≠ '=') = '=' :: value := by
    rw [List.dropWhile_append_of_pos f.long_plain]
    simp
  dsimp only
  rw [htake, hdrop, Flag.find?_long hallowed]
  exact if_pos htakes

theorem addLong_alone (hallowed : f ∈ Flag.allowed p.verb) (htakes : f.takesValue = false) :
    p.addLong f.long = p.addFlag f := by
  unfold addLong
  have htake : f.long.takeWhile (· ≠ '=') = f.long := List.takeWhile_eq_self_iff.2 f.long_plain
  have hdrop : f.long.dropWhile (· ≠ '=') = [] := List.dropWhile_eq_nil_iff.2 f.long_plain
  dsimp only
  rw [htake, hdrop, Flag.find?_long hallowed]
  exact if_neg (by rw [htakes]; decide)

theorem step_long {body : List Char} (hmore : p.argumentsOnly = false) (hfree : p.pending = none)
    (hne : body ≠ []) : p.step ('-' :: '-' :: body) = p.addLong body := by
  obtain ⟨c, rest, rfl⟩ := List.exists_cons_of_ne_nil hne
  unfold step
  rw [hmore, hfree]
  rfl

def withValues (p : Progress) (values : List (Flag × List Char)) : Progress :=
  { p with current := { p.current with values := values.reverse ++ p.current.values } }

def withFlags (p : Progress) (flags : List Flag) : Progress :=
  { p with current := { p.current with flags := flags.reverse ++ p.current.flags } }

def withArguments (p : Progress) (arguments : List (List Char)) : Progress :=
  { p with current := { p.current with arguments := p.current.arguments ++ arguments } }

/-- Values of different options, none of which was given before, are read one by one. -/
theorem foldlM_values {values : List (Flag × List Char)} (hmore : p.argumentsOnly = false)
    (hfree : p.pending = none)
    (hok : ∀ x ∈ values, x.1 ∈ Flag.allowed p.verb ∧ x.1.takesValue = true ∧
      x.1.accepts x.2 = true ∧ p.current.value? x.1 = none)
    (hdistinct : (values.map (·.1)).Nodup) :
    (values.map fun x => x.1.withValue x.2).foldlM step p = .ok (p.withValues values) := by
  induction values generalizing p with
  | nil => rfl
  | cons x values ih =>
      obtain ⟨hallowed, htakes, haccepts, hnew⟩ := hok x List.mem_cons_self
      rw [List.map_cons, List.nodup_cons] at hdistinct
      have hstep : p.step (x.1.withValue x.2) = .ok (p.withValues [x]) := by
        have hne : x.1.long ++ '=' :: x.2 ≠ [] := by simp
        rw [Flag.withValue, step_long hmore hfree hne, addLong_withValue hallowed htakes, addValue,
          haccepts, hnew, withValues, hfree]
        rfl
      have hrest : ∀ y ∈ values, y.1 ∈ Flag.allowed p.verb ∧ y.1.takesValue = true ∧
          y.1.accepts y.2 = true ∧ (p.withValues [x]).current.value? y.1 = none := by
        intro y hy
        obtain ⟨hallowed', htakes', haccepts', hnew'⟩ := hok y (List.mem_cons_of_mem x hy)
        have hne : y.1 ≠ x.1 := fun heq => hdistinct.1 (heq ▸ List.mem_map_of_mem hy)
        refine ⟨hallowed', htakes', haccepts', ?_⟩
        rw [Given.value?, withValues, List.reverse_singleton, List.singleton_append,
          List.lookup_cons, beq_false_of_ne hne]
        exact hnew'
      rw [List.map_cons, foldlM_cons_of_step hstep,
        ih (p := p.withValues [x]) hmore hfree hrest hdistinct.2]
      simp [withValues]

theorem foldlM_flags {flags : List Flag} (hmore : p.argumentsOnly = false)
    (hfree : p.pending = none)
    (hok : ∀ f ∈ flags, f ∈ Flag.allowed p.verb ∧ f.takesValue = false ∧
      f ∉ [.verbose, .version, .help] ∧ f ∉ p.current.flags)
    (hdistinct : flags.Nodup) :
    (flags.map Flag.alone).foldlM step p = .ok (p.withFlags flags) := by
  induction flags generalizing p with
  | nil => rfl
  | cons f flags ih =>
      obtain ⟨hallowed, htakes, hplain, hnew⟩ := hok f List.mem_cons_self
      rw [List.nodup_cons] at hdistinct
      have hstep : p.step f.alone = .ok (p.withFlags [f]) := by
        have hne : f.long ≠ [] := by cases f <;> decide
        rw [Flag.alone, step_long hmore hfree hne, addLong_alone hallowed htakes]
        unfold addFlag
        split
        · exact absurd (by simp) hplain
        · exact absurd (by simp) hplain
        · exact absurd (by simp) hplain
        · exact if_neg hnew
      have hrest : ∀ g ∈ flags, g ∈ Flag.allowed p.verb ∧ g.takesValue = false ∧
          g ∉ [.verbose, .version, .help] ∧ g ∉ (p.withFlags [f]).current.flags := by
        intro g hg
        obtain ⟨hallowed', htakes', hplain', hnew'⟩ := hok g (List.mem_cons_of_mem f hg)
        refine ⟨hallowed', htakes', hplain', ?_⟩
        rw [withFlags, List.reverse_singleton, List.singleton_append, List.mem_cons, not_or]
        exact ⟨fun heq => hdistinct.1 (heq ▸ hg), hnew'⟩
      rw [List.map_cons, foldlM_cons_of_step hstep,
        ih (p := p.withFlags [f]) hmore hfree hrest hdistinct.2]
      simp [withFlags]

/-- Behind the two dashes every argument is kept as it is, as long as the command takes it. -/
theorem foldlM_arguments {arguments : List (List Char)} (hdashes : p.argumentsOnly = true)
    (hverb : p.verb = some v)
    (hcount : p.current.arguments.length + arguments.length ≤ v.argumentCount) :
    arguments.foldlM step p = .ok (p.withArguments arguments) := by
  induction arguments generalizing p with
  | nil => simp [withArguments, pure, Except.pure]
  | cons arg arguments ih =>
      rw [List.length_cons] at hcount
      have hstep : p.step arg = .ok (p.withArguments [arg]) := by
        have hlt : p.current.arguments.length < v.argumentCount := by omega
        simp [step, addArgument, withArguments, hdashes, hverb, hlt]
      have hcount' : (p.withArguments [arg]).current.arguments.length + arguments.length ≤
          v.argumentCount := by
        rw [withArguments, List.length_append, List.length_singleton]
        omega
      rw [foldlM_cons_of_step hstep, ih (p := p.withArguments [arg]) hdashes hverb hcount']
      simp [withArguments]

theorem step_dashes (hmore : p.argumentsOnly = false) (hfree : p.pending = none) :
    p.step ['-', '-'] = .ok { p with argumentsOnly := true } := by
  unfold step
  rw [hmore, hfree]
  rfl

theorem step_verb (v : Verb) : start.step v.name = .ok (start.enter v) := by
  cases v <;> rfl

end Progress

namespace Action

def verb : Action → Verb
  | .locate .. => .locate
  | .extract .. => .extract
  | .resolve .. => .resolve

def value? : Action → Flag → Option (List Char)
  | .locate _ _ hint _ _, .hint => hint
  | .extract _ line _, .line => some (Text.decimal line)
  | .extract _ _ column, .column => some (Text.decimal column)
  | .resolve _ _ hint _ _ _, .hint => hint
  | .resolve _ _ _ _ purpose _, .purpose => purpose
  | _, _ => none

def flags : Action → List Flag
  | .locate _ _ _ mode raw =>
      (if mode = .declaration then [.declaration] else []) ++ if raw then [.raw] else []
  | .extract .. => []
  | .resolve _ _ _ mode _ copy =>
      (if mode = .declaration then [.declaration] else []) ++ if copy then [.copy] else []

def arguments : Action → List (List Char)
  | .locate file name _ _ _ => [file, name]
  | .extract file _ _ => [file]
  | .resolve file name _ _ _ _ => [file, name]

/-- The options without a value belong to the command and are plain ones, each named once. -/
theorem flags_plain (a : Action) : a.flags.Nodup ∧
    ∀ f ∈ a.flags, f ∈ Flag.allowed (some a.verb) ∧ f.takesValue = false ∧
      f ∉ [.verbose, .version, .help] := by
  cases a with
  | locate file name hint mode raw =>
      cases mode <;> cases raw <;> simp only [flags, verb] <;> decide
  | extract file line column => simp only [flags, verb]; decide
  | resolve file name hint mode purpose copy =>
      cases mode <;> cases copy <;> simp only [flags, verb] <;> decide

theorem length_arguments (a : Action) : a.arguments.length = a.verb.argumentCount := by
  cases a <;> rfl

end Action

namespace Request

def value? (r : Request) : Flag → Option (List Char)
  | .workspace => r.options.workspace
  | .dialect => r.options.dialect.map DialectKind.name
  | .window => r.options.window.map Text.decimal
  | f => r.action.value? f

def values (r : Request) : List (Flag × List Char) :=
  (Flag.allowed (some r.action.verb)).filterMap fun f => (r.value? f).map fun value => (f, value)

/-- A command line for a request. -/
def written (r : Request) : List (List Char) :=
  r.action.verb.name :: ((r.values.map fun x => x.1.withValue x.2) ++
    (r.action.flags.map Flag.alone ++ ['-', '-'] :: r.action.arguments))

/-- The working directory is not empty and every count fits in 64 bits. -/
structure Fits (r : Request) : Prop where
  workspace_ne : r.options.workspace ≠ some []
  window_lt : ∀ size ∈ r.options.window, size < UInt64.size
  place_lt : ∀ file line column, r.action = .extract file line column →
    line < UInt64.size ∧ column < UInt64.size

theorem mem_values_iff {x : Flag × List Char} :
    x ∈ r.values ↔ x.1 ∈ Flag.allowed (some r.action.verb) ∧ r.value? x.1 = some x.2 := by
  obtain ⟨f, value⟩ := x
  simp only [values, List.mem_filterMap, Option.map_eq_some_iff, Prod.mk.injEq]
  constructor
  · rintro ⟨g, hg, w, hw, rfl, rfl⟩
    exact ⟨hg, hw⟩
  · rintro ⟨hf, hvalue⟩
    exact ⟨f, hf, value, hvalue, rfl, rfl⟩

theorem nodup_values (r : Request) : (r.values.map (·.1)).Nodup := by
  have hkey : ∀ f key, ((r.value? f).map fun value => (f, value)).map (·.1) = some key →
      key = f := by
    intro f key h
    cases hv : r.value? f with
    | none => simp [hv] at h
    | some value => simpa [hv, eq_comm] using h
  rw [values, List.map_filterMap]
  refine List.Pairwise.filterMap _ ?_ (Flag.nodup_allowed _)
  intro f g hne key hf key' hg
  rwa [hkey f key hf, hkey g key' hg]

/-- Looking up an option of the command in the values read gives its value in the request. -/
theorem lookup_values (h : f ∈ Flag.allowed (some r.action.verb)) :
    r.values.reverse.lookup f = r.value? f := by
  cases hl : r.values.reverse.lookup f with
  | none =>
      rw [List.lookup_eq_none_iff] at hl
      cases hv : r.value? f with
      | none => rfl
      | some value =>
          have hmem : (f, value) ∈ r.values.reverse :=
            List.mem_reverse.2 (mem_values_iff.2 ⟨h, hv⟩)
          simpa using hl _ hmem
  | some value =>
      obtain ⟨before, after, hsplit, -⟩ := List.lookup_eq_some_iff.1 hl
      have hmem : (f, value) ∈ r.values.reverse := by simp [hsplit]
      exact (mem_values_iff.1 (List.mem_reverse.1 hmem)).2.symm

theorem Fits.accepts (hr : r.Fits) (h : r.value? f = some value) :
    f.takesValue = true ∧ f.accepts value = true := by
  have hcount : ∀ n < UInt64.size, (Flag.count? (Text.decimal n)).isSome = true := by
    intro n hn
    rw [Flag.count?_decimal hn]
    rfl
  obtain ⟨⟨workspace, dialect, window⟩, action⟩ := r
  cases f with
  | workspace =>
      refine ⟨rfl, ?_⟩
      have hne : value ≠ [] := fun hnil => hr.workspace_ne (h.trans (congrArg some hnil))
      simpa [Flag.accepts] using hne
  | dialect =>
      obtain ⟨kind, -, rfl⟩ := Option.map_eq_some_iff.1 h
      exact ⟨rfl, by cases kind <;> rfl⟩
  | window =>
      obtain ⟨size, hsize, rfl⟩ := Option.map_eq_some_iff.1 h
      exact ⟨rfl, hcount size (hr.window_lt size hsize)⟩
  | hint => exact ⟨rfl, rfl⟩
  | purpose => exact ⟨rfl, rfl⟩
  | line =>
      cases action with
      | extract file line column =>
          cases h
          exact ⟨rfl, hcount line (hr.place_lt _ _ _ rfl).1⟩
      | locate => cases h
      | resolve => cases h
  | column =>
      cases action with
      | extract file line column =>
          cases h
          exact ⟨rfl, hcount column (hr.place_lt _ _ _ rfl).2⟩
      | locate => cases h
      | resolve => cases h
  | _ => cases action <;> cases h

/-- What is read from the written form of a request. -/
def progress (r : Request) : Progress :=
  ⟨some r.action.verb, .none, ⟨r.values.reverse, r.action.flags.reverse, r.action.arguments⟩, none,
    true⟩

theorem foldlM_written (hr : r.Fits) :
    r.written.foldlM Progress.step .start = .ok r.progress := by
  have hvalues : ∀ x ∈ r.values, x.1 ∈ Flag.allowed (some r.action.verb) ∧
      x.1.takesValue = true ∧ x.1.accepts x.2 = true ∧
      (Progress.start.enter r.action.verb).current.value? x.1 = none := by
    intro x hx
    obtain ⟨hallowed, hvalue⟩ := mem_values_iff.1 hx
    obtain ⟨htakes, haccepts⟩ := hr.accepts hvalue
    exact ⟨hallowed, htakes, haccepts, rfl⟩
  have hread := Progress.foldlM_values (p := .enter .start r.action.verb) rfl rfl hvalues
    r.nodup_values
  obtain ⟨hdistinct, hflags⟩ := r.action.flags_plain
  have hread' : (r.action.flags.map Flag.alone).foldlM Progress.step
      ((Progress.start.enter r.action.verb).withValues r.values) =
        .ok (((Progress.start.enter r.action.verb).withValues r.values).withFlags
          r.action.flags) := by
    refine Progress.foldlM_flags rfl rfl (fun f hf => ?_) hdistinct
    obtain ⟨hallowed, htakes, hplain⟩ := hflags f hf
    exact ⟨hallowed, htakes, hplain, List.not_mem_nil⟩
  have hcount : r.action.arguments.length ≤ r.action.verb.argumentCount :=
    Nat.le_of_eq (Action.length_arguments _)
  rw [written, foldlM_cons_of_step (Progress.step_verb _),
    foldlM_append_of_read hread, foldlM_append_of_read hread',
    foldlM_cons_of_step (Progress.step_dashes rfl rfl),
    Progress.foldlM_arguments (v := r.action.verb) rfl rfl (by simpa [Progress.withFlags,
      Progress.withValues, Progress.enter, Given.none] using hcount)]
  simp only [Progress.withArguments, Progress.withFlags, Progress.withValues, Progress.enter,
    Given.none, List.append_nil, List.nil_append, progress, Progress.start]

theorem value?_progress (h : f ∈ Flag.allowed (some r.action.verb)) :
    r.progress.value? f = r.value? f := by
  rw [Progress.value?, progress, Given.value?, lookup_values h]
  cases r.value? f <;> rfl

theorem options_progress (hr : r.Fits) : r.progress.options = r.options := by
  have hshared : ∀ f ∈ Flag.shared, r.progress.value? f = r.value? f := by
    intro f hf
    apply value?_progress
    cases r.action.verb <;> exact List.mem_append_left _ hf
  obtain ⟨⟨workspace, dialect, window⟩, action⟩ := r
  have hdialect : (dialect.map DialectKind.name).bind DialectKind.ofName? = dialect := by
    cases dialect with
    | none => rfl
    | some kind => exact DialectKind.ofName?_name kind
  have hwindow : (window.map Text.decimal).bind Flag.count? = window := by
    cases hw : window with
    | none => rfl
    | some size => exact Flag.count?_decimal (hr.window_lt size hw)
  rw [Progress.options, hshared .workspace (by decide), hshared .dialect (by decide),
    hshared .window (by decide)]
  simp only [value?, hdialect, hwindow]

theorem action?_progress (hr : r.Fits) : r.progress.action? = some r.action := by
  obtain ⟨options, action⟩ := r
  cases action with
  | locate file name hint mode raw =>
      have hhint := value?_progress (r := ⟨options, .locate file name hint mode raw⟩)
        (show Flag.hint ∈ Flag.allowed (some .locate) by decide)
      have hmode : (progress ⟨options, .locate file name hint mode raw⟩).mode = mode := by
        cases mode <;> cases raw <;> rfl
      have hraw : decide (Flag.raw ∈
          (progress ⟨options, .locate file name hint mode raw⟩).current.flags) = raw := by
        cases mode <;> cases raw <;> rfl
      change some (Action.locate file name _ _ _) = _
      rw [hhint, hmode, hraw]
      rfl
  | extract file line column =>
      have hline := value?_progress (r := ⟨options, .extract file line column⟩)
        (show Flag.line ∈ Flag.allowed (some .extract) by decide)
      have hcolumn := value?_progress (r := ⟨options, .extract file line column⟩)
        (show Flag.column ∈ Flag.allowed (some .extract) by decide)
      obtain ⟨hlt, hlt'⟩ := hr.place_lt file line column rfl
      simp only [Progress.action?, progress, Action.verb, Action.arguments] at hline hcolumn ⊢
      rw [hline, hcolumn]
      simp [value?, Action.value?, Flag.count?_decimal hlt, Flag.count?_decimal hlt']
  | resolve file name hint mode purpose copy =>
      have hhint := value?_progress (r := ⟨options, .resolve file name hint mode purpose copy⟩)
        (show Flag.hint ∈ Flag.allowed (some .resolve) by decide)
      have hpurpose := value?_progress (r := ⟨options, .resolve file name hint mode purpose copy⟩)
        (show Flag.purpose ∈ Flag.allowed (some .resolve) by decide)
      have hmode : (progress ⟨options, .resolve file name hint mode purpose copy⟩).mode = mode := by
        cases mode <;> cases copy <;> rfl
      have hcopy : decide (Flag.copy ∈
          (progress ⟨options, .resolve file name hint mode purpose copy⟩).current.flags) =
          copy := by
        cases mode <;> cases copy <;> rfl
      change some (Action.resolve file name _ _ _ _) = _
      rw [hhint, hmode, hpurpose, hcopy]
      rfl

/-- Reading the written form of a request gives the request back. -/
theorem parse_written (hr : r.Fits) : parse r.written = .ok r := by
  have hread : parse r.written = r.progress.finish := by
    rw [parse, foldlM_written hr]
    rfl
  rw [hread, Progress.finish, action?_progress hr, options_progress hr]
  rfl

end Request

namespace Progress

variable {arg : List Char}

/-- Every value read so far is one that its option takes. -/
def Accepted (p : Progress) : Prop :=
  ∀ x ∈ p.current.values ++ p.before.values, x.1.accepts x.2 = true

theorem Accepted.addArgument (hp : p.Accepted) (h : p.addArgument arg = .ok q) : q.Accepted := by
  unfold Progress.addArgument at h
  split at h
  · cases h
  · split_ifs at h
    cases h
    exact hp

theorem Accepted.addValue (hp : p.Accepted) (h : p.addValue f value = .ok q) : q.Accepted := by
  unfold Progress.addValue at h
  split_ifs at h with hok
  cases h
  rw [Bool.and_eq_true] at hok
  exact List.forall_mem_cons.2 ⟨hok.1, hp⟩

theorem Accepted.addFlag (hp : p.Accepted) (h : p.addFlag f = .ok q) : q.Accepted := by
  unfold Progress.addFlag at h
  split at h
  · cases h
  · cases h
  · cases h
    exact hp
  · split_ifs at h
    cases h
    exact hp

theorem Accepted.addLong (hp : p.Accepted) (h : p.addLong arg = .ok q) : q.Accepted := by
  unfold Progress.addLong at h
  dsimp only at h
  split at h
  · cases h
  · split_ifs at h
    · cases h
      exact hp
    · exact hp.addFlag h
  · split_ifs at h
    exact hp.addValue h

theorem Accepted.addShort {cluster : List Char} (hp : p.Accepted)
    (h : p.addShort cluster = .ok q) : q.Accepted := by
  induction cluster generalizing p with
  | nil =>
      cases h
      exact hp
  | cons c rest ih =>
      unfold Progress.addShort at h
      split at h
      · cases h
      · split_ifs at h
        · split at h
          · cases h
            exact hp
          · exact hp.addValue h
          · exact hp.addValue h
        · split at h
          · cases h
          · next hflag => exact ih (hp.addFlag hflag) h

theorem Accepted.enter (hp : p.Accepted) (v : Verb) : (p.enter v).Accepted :=
  fun x hx => hp x (List.mem_append_left _ hx)

theorem Accepted.step (hp : p.Accepted) (h : p.step arg = .ok q) : q.Accepted := by
  unfold Progress.step at h
  split_ifs at h
  · exact hp.addArgument h
  · split at h
    · cases h
    · exact hp.addValue h
    · cases h
      exact hp
    · exact hp.addLong h
    · exact hp.addShort h
    · split at h
      · cases h
        exact hp.enter _
      · exact hp.addArgument h

theorem Accepted.foldlM (hp : p.Accepted) (h : args.foldlM Progress.step p = .ok q) :
    q.Accepted :=
  foldlM_keeps (fun _ _ _ hp hstep => hp.step hstep) hp h

theorem Accepted.value? (hp : p.Accepted) (h : p.value? f = some value) :
    f.accepts value = true := by
  have hmem : ∀ g : Given, g.value? f = some value → (f, value) ∈ g.values := by
    intro g hg
    obtain ⟨before, after, hsplit, -⟩ := List.lookup_eq_some_iff.1 hg
    rw [hsplit]
    exact List.mem_append_right _ List.mem_cons_self
  unfold Progress.value? at h
  cases hcurrent : p.current.value? f with
  | none =>
      rw [hcurrent] at h
      exact hp _ (List.mem_append_right _ (hmem _ h))
  | some w =>
      rw [hcurrent] at h
      cases h
      exact hp _ (List.mem_append_left _ (hmem _ hcurrent))

theorem place_of_action? {file : List Char} {line column : Nat}
    (h : p.action? = some (.extract file line column)) :
    (p.value? .line).bind Flag.count? = some line ∧
      ((p.value? .column).bind Flag.count?).getD 1 = column := by
  unfold action? at h
  split at h
  · cases h
  · cases hline : (p.value? .line).bind Flag.count? with
    | none =>
        rw [hline] at h
        cases h
    | some n =>
        rw [hline] at h
        cases h
        exact ⟨rfl, rfl⟩
  · cases h
  · cases h

theorem Accepted.fits (hp : p.Accepted) (h : p.finish = .ok r) : r.Fits := by
  unfold finish at h
  split at h
  · next action hpending haction =>
      cases h
      refine ⟨?_, ?_, ?_⟩
      · intro hworkspace
        cases hp.value? hworkspace
      · intro size hsize
        obtain ⟨s, -, hs⟩ := Option.bind_eq_some_iff.1 hsize
        exact Flag.lt_of_count? hs
      · rintro file line column rfl
        obtain ⟨hline, hcolumn⟩ := place_of_action? haction
        obtain ⟨s, -, hs⟩ := Option.bind_eq_some_iff.1 hline
        refine ⟨Flag.lt_of_count? hs, ?_⟩
        -- without a column the first one is meant
        cases hvalue : (p.value? .column).bind Flag.count? with
        | none =>
            rw [hvalue] at hcolumn
            exact hcolumn ▸ by decide
        | some n =>
            rw [hvalue] at hcolumn
            obtain ⟨s, -, hs⟩ := Option.bind_eq_some_iff.1 hvalue
            exact hcolumn ▸ Flag.lt_of_count? hs
  · cases h

end Progress

/-- A request can be read from some command line exactly when its working directory has a name
and its counts fit in 64 bits. -/
theorem exists_parse_iff : (∃ args, parse args = .ok r) ↔ r.Fits := by
  constructor
  · rintro ⟨args, h⟩
    obtain ⟨p, hread, hfinish⟩ := bind_eq_ok_iff.1 h
    have hstart : Progress.start.Accepted := fun x hx => absurd hx List.not_mem_nil
    exact (hstart.foldlM hread).fits hfinish
  · exact fun hr => ⟨r.written, Request.parse_written hr⟩

end Command

end CodeSpan
