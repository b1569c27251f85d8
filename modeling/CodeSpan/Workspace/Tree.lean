import CodeSpan.Path

/-!
# Trees of files

A location is the list of names that lead from the root to a file or directory. A tree holds
each location once, and with every location the directory around it. Paths are followed name
by name: every step needs a directory to start from, also one that stays or goes up.
-/

namespace CodeSpan

abbrev Location := List (List Char)

/-- One text stands before another in the dictionary order of their characters. -/
def Text.Before : List Char → List Char → Prop :=
  List.Lex fun c d => c.toNat < d.toNat

instance : DecidableRel Text.Before :=
  fun s t => List.decidableLex _ s t

/-- One location stands before another in the dictionary order of their names. -/
def Location.Before : Location → Location → Prop :=
  List.Lex Text.Before

instance : DecidableRel Location.Before :=
  fun l k => List.decidableLex _ l k

namespace Location

def path (l : Location) : Path :=
  '/' :: List.intercalate ['/'] l

/-- What leads from one location to another below it. -/
def below? : Location → Location → Option Location
  | [], l => some l
  | _ :: _, [] => none
  | n :: base, m :: l => if n = m then below? base l else none

theorem below?_eq_some_iff {base l rest : Location} :
    below? base l = some rest ↔ l = base ++ rest := by
  induction base generalizing l with
  | nil => simp [below?]
  | cons n base ih =>
      cases l with
      | nil => simp [below?]
      | cons m l =>
          by_cases h : n = m
          · simp [below?, h, ih]
          · simp [below?, h, Ne.symm h]

end Location

inductive Entry where
  | directory
  | file (content : ByteArray)

/-- Names that a directory can hold. -/
def ProperName (n : List Char) : Prop :=
  n ≠ [] ∧ '/' ∉ n ∧ n ≠ ['.'] ∧ n ≠ ['.', '.']

instance (n : List Char) : Decidable (ProperName n) :=
  inferInstanceAs (Decidable (_ ∧ _ ∧ _ ∧ _))

structure Tree where
  entries : List (Location × Entry)
  distinct : (entries.map (·.1)).Nodup
  rooted : ∀ e ∈ entries, e.1 ≠ [] ∧ (e.1.dropLast = [] ∨ (e.1.dropLast, .directory) ∈ entries)
  proper : ∀ e ∈ entries, ∀ n ∈ e.1, ProperName n

namespace Tree

def empty : Tree :=
  ⟨[], List.nodup_nil, by simp, by simp⟩

def entryAt? (t : Tree) (l : Location) : Option Entry :=
  if l = [] then some .directory else (t.entries.find? (·.1 = l)).map (·.2)

def isDirectory (t : Tree) (l : Location) : Bool :=
  match t.entryAt? l with
  | some .directory => true
  | _ => false

def isFile (t : Tree) (l : Location) : Bool :=
  match t.entryAt? l with
  | some (.file _) => true
  | _ => false

def content? (t : Tree) (l : Location) : Option ByteArray :=
  match t.entryAt? l with
  | some (.file content) => some content
  | _ => none

theorem mem_of_isDirectory {t : Tree} {l : Location} (h : t.isDirectory l = true) :
    l = [] ∨ (l, .directory) ∈ t.entries := by
  by_cases hl : l = []
  · exact Or.inl hl
  · refine Or.inr ?_
    unfold isDirectory entryAt? at h
    rw [if_neg hl] at h
    cases hf : t.entries.find? (·.1 = l) with
    | none => simp [hf] at h
    | some e =>
        obtain ⟨m, e⟩ := e
        have hm := List.find?_some hf
        have hmem := List.mem_of_find?_eq_some hf
        simp only [decide_eq_true_eq] at hm
        subst hm
        cases e with
        | directory => exact hmem
        | file content => simp [hf] at h

theorem notMem_of_entryAt?_eq_none {t : Tree} {l : Location} (h : t.entryAt? l = none) :
    l ∉ t.entries.map (·.1) := by
  unfold entryAt? at h
  split at h
  · cases h
  · intro hm
    obtain ⟨e, he, rfl⟩ := List.mem_map.1 hm
    simpa using List.find?_eq_none.1 (Option.map_eq_none_iff.1 h) e he

/-- Adds one entry to a directory that does not hold its name yet. -/
def add? (t : Tree) (dir : Location) (name : List Char) (e : Entry) : Option Tree :=
  if h : t.isDirectory dir = true ∧ (t.entryAt? (dir ++ [name])).isNone = true ∧
      ProperName name then
    some
      { entries := (dir ++ [name], e) :: t.entries
        distinct := by
          rw [List.map_cons]
          exact List.nodup_cons.2
            ⟨notMem_of_entryAt?_eq_none (Option.isNone_iff_eq_none.1 h.2.1), t.distinct⟩
        rooted := by
          intro x hx
          rcases List.mem_cons.1 hx with rfl | hx
          · refine ⟨by simp, ?_⟩
            simp only [List.dropLast_concat]
            exact (mem_of_isDirectory h.1).imp_right (List.mem_cons_of_mem _)
          · exact ⟨(t.rooted x hx).1, (t.rooted x hx).2.imp_right (List.mem_cons_of_mem _)⟩
        proper := by
          intro x hx n hn
          rcases List.mem_cons.1 hx with rfl | hx
          · rcases List.mem_append.1 hn with hn | hn
            · rcases mem_of_isDirectory h.1 with rfl | hd
              · cases hn
              · exact t.proper _ hd n hn
            · rw [List.mem_singleton.1 hn]
              exact h.2.2
          · exact t.proper x hx n hn }
  else none

/-- Adds the directories that lead from one location down through the given names. -/
def addDirectories? (t : Tree) (dir : Location) : List (List Char) → Option Tree
  | [] => some t
  | n :: names =>
      if t.isDirectory (dir ++ [n]) then t.addDirectories? (dir ++ [n]) names
      else (t.add? dir n .directory).bind fun t => t.addDirectories? (dir ++ [n]) names

def addDirectory? (t : Tree) (l : Location) : Option Tree :=
  t.addDirectories? [] l

def addFile? (t : Tree) (l : Location) (content : ByteArray) : Option Tree :=
  match l.getLast? with
  | none => none
  | some name => (t.addDirectory? l.dropLast).bind fun t => t.add? l.dropLast name (.file content)

/-- Everything below a location, in the dictionary order of names, so that each directory stands
just before what it holds. -/
def descendants (t : Tree) (l : Location) : List Location :=
  ((t.entries.map (·.1)).filter fun m =>
    (l.below? m).any fun rest => !rest.isEmpty).mergeSort fun m k => ¬ k.Before m

def children (t : Tree) (l : Location) : List (List Char) :=
  (t.descendants l).filterMap fun m =>
    match l.below? m with
    | some [n] => some n
    | _ => none

/-- The paths of all files from a location on, relative to it. -/
def filesFrom (t : Tree) (l : Location) : List Location :=
  if t.isFile l then [[]]
  else ((t.descendants l).filter t.isFile).filterMap l.below?

/-- Follows the pieces between the separators of a path; an empty piece stays where it is. -/
def follow? (t : Tree) (l : Location) : List (List Char) → Option Location
  | [] => if (t.entryAt? l).isSome then some l else none
  | piece :: pieces =>
      if t.isDirectory l then
        match piece with
        | [] => t.follow? l pieces
        | ['.'] => t.follow? l pieces
        | ['.', '.'] => t.follow? l.dropLast pieces
        | n => t.follow? (l ++ [n]) pieces
      else none

def resolve? (t : Tree) (current : Location) (p : Path) : Option Location :=
  if p.isEmpty then none
  else t.follow? (if Path.isAbsolute p then [] else current) (List.splitOn '/' p)

end Tree
end CodeSpan
