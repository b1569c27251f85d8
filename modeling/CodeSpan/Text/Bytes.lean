/-!
# Byte offsets

A position in a text is the number of bytes of its UTF-8 form that stand before it. The
functions here measure a text in bytes, look at single bytes, and turn a byte offset back
into a number of characters when the offset falls between two of them.
-/

namespace CodeSpan.Text

def byteLength : List Char → Nat
  | [] => 0
  | c :: s => c.utf8Size + byteLength s

@[simp] theorem byteLength_nil : byteLength [] = 0 := rfl

@[simp] theorem byteLength_cons (c : Char) (s : List Char) :
    byteLength (c :: s) = c.utf8Size + byteLength s := rfl

@[simp] theorem byteLength_append (s t : List Char) :
    byteLength (s ++ t) = byteLength s + byteLength t := by
  induction s with
  | nil => simp
  | cons c s ih => simp [ih, Nat.add_assoc]

theorem length_le_byteLength (s : List Char) : s.length ≤ byteLength s := by
  induction s with
  | nil => simp
  | cons c s ih =>
      have := c.utf8Size_pos
      simp only [List.length_cons, byteLength_cons]
      omega

def utf8Bytes (s : List Char) : List UInt8 :=
  s.flatMap String.utf8EncodeChar

@[simp] theorem utf8Bytes_append (s t : List Char) :
    utf8Bytes (s ++ t) = utf8Bytes s ++ utf8Bytes t := by
  simp [utf8Bytes]

@[simp] theorem length_utf8Bytes (s : List Char) : (utf8Bytes s).length = byteLength s := by
  induction s with
  | nil => rfl
  | cons c s ih =>
      rw [utf8Bytes, List.flatMap_cons, List.length_append, byteLength_cons,
        String.length_utf8EncodeChar]
      exact congrArg _ ih

def byteAt? (s : List Char) (offset : Nat) : Option UInt8 :=
  (utf8Bytes s)[offset]?

/-- The number of characters before a byte offset, if the offset falls between two characters. -/
def charsBefore? : List Char → Nat → Option Nat
  | _, 0 => some 0
  | [], _ + 1 => none
  | c :: s, n + 1 =>
      if c.utf8Size ≤ n + 1 then (charsBefore? s (n + 1 - c.utf8Size)).map (· + 1) else none

theorem charsBefore?_byteLength (s t : List Char) :
    charsBefore? (s ++ t) (byteLength s) = some s.length := by
  induction s with
  | nil => simp [charsBefore?]
  | cons c s ih =>
      have hc := c.utf8Size_pos
      obtain ⟨n, hn⟩ : ∃ n, c.utf8Size + byteLength s = n + 1 :=
        ⟨c.utf8Size + byteLength s - 1, by omega⟩
      have hs : n + 1 - c.utf8Size = byteLength s := by omega
      rw [byteLength_cons, hn, List.cons_append, charsBefore?, if_pos (by omega), hs, ih]
      rfl

end CodeSpan.Text
