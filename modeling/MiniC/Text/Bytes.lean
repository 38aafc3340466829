/-!
# Byte offsets

A place in a text can be given by the number of bytes before it in the UTF-8 encoding. Not every
number is such a place: one may point into the encoding of a character, or past the end.
-/

namespace MiniC.Text

-- Sums start from the zero of the core library, whatever else is in scope.
attribute [local instance (high)] Zero.ofOfNat0

/-- The number of bytes of a text. -/
def byteLength (cs : List Char) : Nat := (cs.map Char.utf8Size).sum

/-- The text after the first `offset` bytes, if they are the encoding of a first part of it. -/
def dropBytes? : Nat → List Char → Option (List Char)
  | 0, cs => some cs
  | _ + 1, [] => none
  | offset + 1, c :: cs =>
    if c.utf8Size ≤ offset + 1 then dropBytes? (offset + 1 - c.utf8Size) cs else none

@[simp] theorem byteLength_nil : byteLength [] = 0 := rfl

@[simp] theorem byteLength_cons (c : Char) (cs : List Char) :
    byteLength (c :: cs) = c.utf8Size + byteLength cs := by simp [byteLength]

@[simp] theorem byteLength_append (a b : List Char) :
    byteLength (a ++ b) = byteLength a + byteLength b := by simp [byteLength]

/-- The bytes of a first part lead to the rest. -/
theorem dropBytes?_byteLength_append (a b : List Char) :
    dropBytes? (byteLength a) (a ++ b) = some b := by
  induction a with
  | nil => cases b <;> simp [dropBytes?]
  | cons c a ih =>
    have hc : 0 < c.utf8Size := Char.utf8Size_pos c
    obtain ⟨n, hn⟩ : ∃ n, c.utf8Size + byteLength a = n + 1 :=
      ⟨c.utf8Size + byteLength a - 1, by omega⟩
    simp only [byteLength_cons, List.cons_append, hn, dropBytes?]
    rw [if_pos (by omega), ← hn, Nat.add_sub_cancel_left]
    exact ih

/-- What is left after some bytes is all but a first part with so many bytes. -/
theorem exists_of_dropBytes? {offset : Nat} {cs rest : List Char}
    (h : dropBytes? offset cs = some rest) :
    ∃ before, cs = before ++ rest ∧ offset = byteLength before := by
  induction cs generalizing offset with
  | nil =>
    cases offset with
    | zero => exact ⟨[], Option.some.inj h, rfl⟩
    | succ offset => cases h
  | cons c cs ih =>
    cases offset with
    | zero => exact ⟨[], Option.some.inj h, rfl⟩
    | succ offset =>
      rw [dropBytes?] at h
      split at h
      · rename_i hle
        obtain ⟨before, rfl, hoffset⟩ := ih h
        refine ⟨c :: before, rfl, ?_⟩
        rw [byteLength_cons]
        omega
      · cases h

/-- A part of a text that ends later has more bytes. -/
theorem byteLength_lt {a b : List Char} (h : a <+: b) (hlength : a.length < b.length) :
    byteLength a < byteLength b := by
  obtain ⟨c, rfl⟩ := h
  cases c with
  | nil =>
    rw [List.append_nil] at hlength
    exact absurd hlength (Nat.lt_irrefl _)
  | cons c cs =>
    have hc : 0 < c.utf8Size := Char.utf8Size_pos c
    rw [byteLength_append, byteLength_cons]
    omega

/-! ### Bytes of strings -/

end MiniC.Text
