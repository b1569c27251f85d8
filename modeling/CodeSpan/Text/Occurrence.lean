/-!
# Occurrences of a text in another

An occurrence is recorded by what stands before and after it. Occurrences are listed from
left to right and do not overlap; the last occurrence is the one that starts furthest to the
right, wherever the listed ones fall.
-/

namespace CodeSpan.Text

/-- What follows `needle` when a text starts with it. -/
def stripStart? : List Char → List Char → Option (List Char)
  | [], s => some s
  | _ :: _, [] => none
  | a :: needle, c :: s => if a = c then stripStart? needle s else none

theorem stripStart?_eq_some_iff {needle s rest : List Char} :
    stripStart? needle s = some rest ↔ s = needle ++ rest := by
  induction needle generalizing s with
  | nil => simp [stripStart?]
  | cons a needle ih =>
      cases s with
      | nil => simp [stripStart?]
      | cons c s =>
          by_cases h : a = c
          · simp [stripStart?, h, ih]
          · simp [stripStart?, h, Ne.symm h]

def startsWith (needle s : List Char) : Bool :=
  (stripStart? needle s).isSome

theorem startsWith_iff {needle s : List Char} : startsWith needle s = true ↔ needle <+: s := by
  simp only [startsWith, Option.isSome_iff_exists, stripStart?_eq_some_iff]
  exact ⟨fun ⟨rest, h⟩ => ⟨rest, h.symm⟩, fun ⟨rest, h⟩ => ⟨rest, h.symm⟩⟩

structure Occurrence where
  before : List Char
  after : List Char
deriving DecidableEq

def occurrencesFrom (needle : List Char) : List Char → Nat → List Char → List Occurrence
  | _, _, [] => []
  | before, skip + 1, c :: s => occurrencesFrom needle (c :: before) skip s
  | before, 0, c :: s =>
      match stripStart? needle (c :: s) with
      | some after =>
          ⟨before.reverse, after⟩ :: occurrencesFrom needle (c :: before) (needle.length - 1) s
      | none => occurrencesFrom needle (c :: before) 0 s

def occurrences (needle s : List Char) : List Occurrence :=
  occurrencesFrom needle [] 0 s

def firstOccurrence? (needle s : List Char) : Option Occurrence :=
  (occurrences needle s).head?

def lastOccurrence? (needle : List Char) : List Char → Option Occurrence
  | [] => none
  | c :: s =>
      match lastOccurrence? needle s with
      | some o => some ⟨c :: o.before, o.after⟩
      | none => (stripStart? needle (c :: s)).map fun after => ⟨[], after⟩

/-- The empty text is contained in every text. -/
def contains (needle : List Char) : List Char → Bool
  | [] => needle.isEmpty
  | c :: s => startsWith needle (c :: s) || contains needle s

theorem eq_append_of_mem_occurrencesFrom {needle before s : List Char} {skip : Nat}
    {o : Occurrence} (h : o ∈ occurrencesFrom needle before skip s) :
    before.reverse ++ s = o.before ++ needle ++ o.after := by
  induction s generalizing before skip with
  | nil => simp [occurrencesFrom] at h
  | cons c s ih =>
      have step : ∀ {skip}, o ∈ occurrencesFrom needle (c :: before) skip s →
          before.reverse ++ c :: s = o.before ++ needle ++ o.after := by
        intro skip hm
        simpa using ih hm
      cases skip with
      | succ skip => exact step (by simpa [occurrencesFrom] using h)
      | zero =>
          rw [occurrencesFrom] at h
          split at h
          · next after hafter =>
              rcases List.mem_cons.1 h with rfl | hm
              · simp [stripStart?_eq_some_iff.1 hafter]
              · exact step hm
          · exact step h

theorem eq_append_of_mem_occurrences {needle s : List Char} {o : Occurrence}
    (h : o ∈ occurrences needle s) : s = o.before ++ needle ++ o.after :=
  eq_append_of_mem_occurrencesFrom h

theorem contains_iff {needle s : List Char} : contains needle s = true ↔ needle <:+: s := by
  induction s with
  | nil => simp [contains]
  | cons c s ih => simp [contains, startsWith_iff, ih, List.infix_cons_iff]

end CodeSpan.Text
