import MiniC.Proofs.Text.Lines

/-!
# Lines in bytes

Lines are told apart in the bytes of a text, before the text is decoded. That is the same as to
decode the text and then to tell its lines apart (`Text.byteLines_bytes`), since the bytes of a line
feed and of a carriage return are no part of any other character. After a line feed the lines start
anew (`Text.splitLines_append`).
-/

namespace MiniC.Text

/-! ### The bytes of a text -/

/-- The **bytes** of a text. -/
def bytes (s : String) : List UInt8 := s.toUTF8.data.toList

/-- The bytes of characters. -/
def encoded (cs : List Char) : List UInt8 := cs.flatMap String.utf8EncodeChar

theorem encoded_append (cs ds : List Char) : encoded (cs ++ ds) = encoded cs ++ encoded ds :=
  List.flatMap_append

theorem encoded_singleton (c : Char) : encoded [c] = String.utf8EncodeChar c := List.append_nil _

theorem encoded_eq_nil_iff {cs : List Char} : encoded cs = [] ↔ cs = [] := by
  rw [encoded, List.flatMap_eq_nil_iff, List.eq_nil_iff_forall_not_mem]
  exact forall₂_congr fun c _ => iff_false_intro String.utf8EncodeChar_ne_nil

theorem getLast?_encoded_concat (cs : List Char) (c : Char) :
    (encoded (cs ++ [c])).getLast? = (String.utf8EncodeChar c).getLast? := by
  obtain ⟨b, hb⟩ := Option.ne_none_iff_exists'.1
    (mt List.getLast?_eq_none_iff.1 (String.utf8EncodeChar_ne_nil (c := c)))
  rw [encoded_append, encoded_singleton, List.getLast?_append, hb, Option.some_or]

private theorem bytes_eq_encoded (s : String) : bytes s = encoded s.toList := by
  rw [bytes, String.toUTF8_eq_toByteArray]
  conv => lhs; rw [← String.ofList_toList (s := s), String.toByteArray_ofList]
  rw [List.utf8Encode, List.data_toByteArray, List.toList_toArray]
  rfl

/-- Texts are read back from their bytes. -/
theorem fromUTF8?_bytes (s : String) : String.fromUTF8? ⟨(bytes s).toArray⟩ = some s := by
  have hbytes : ByteArray.mk (bytes s).toArray = s.toByteArray := by
    rw [bytes, Array.toArray_toList, String.toUTF8_eq_toByteArray]
  rw [hbytes, String.fromUTF8?, dif_pos s.isValidUTF8]
  rfl

/-- All bytes of a character from 128 on are from 128 on. -/
private theorem le_toNat_of_mem_utf8EncodeChar {c : Char} (hc : 128 ≤ c.val.toNat) :
    ∀ b ∈ String.utf8EncodeChar c, 128 ≤ b.toNat := by
  have hhigh {n : Nat} (hle : 128 ≤ n) (hlt : n < 256) : 128 ≤ (UInt8.ofNat n).toNat := by
    rwa [UInt8.toNat_ofNat', Nat.mod_eq_of_lt hlt]
  fun_cases String.utf8EncodeChar c
  case case1 => omega
  all_goals
    simp only [List.mem_cons, List.not_mem_nil, or_false, forall_eq_or_imp, forall_eq]
    and_intros <;> exact hhigh (by omega) (by omega)

/-- The byte of a character below 128 is no part of another character. -/
theorem mem_utf8EncodeChar_iff {c d : Char} (hd : d.val.toNat < 128) :
    d.val.toUInt8 ∈ String.utf8EncodeChar c ↔ d = c := by
  have hbyte {c : Char} (hc : c.val.toNat < 128) : c.val.toUInt8.toNat = c.val.toNat := by
    rw [UInt32.toNat_toUInt8]
    omega
  rcases Nat.lt_or_ge c.val.toNat 128 with hc | hc
  · have hsize : c.utf8Size = 1 :=
      Char.utf8Size_eq_one_iff.2 (UInt32.le_iff_toNat_le.2 (Nat.le_of_lt_succ hc))
    rw [String.utf8EncodeChar_eq_singleton hsize, List.mem_singleton, ← UInt8.toNat_inj, hbyte hc,
      hbyte hd, UInt32.toNat_inj, Char.ext_iff]
  · refine iff_of_false (fun h => ?_) ?_
    · have hhigh := le_toNat_of_mem_utf8EncodeChar hc _ h
      rw [hbyte hd] at hhigh
      omega
    · rintro rfl
      omega

/-! ### Lines -/

/-- After a line feed the lines start anew. -/
theorem splitLines_append [DecidableEq α] {feed ret : α} {as : List α}
    (h : ∀ a ∈ as.getLast?, a = feed) (bs : List α) :
    splitLines feed ret (as ++ bs) = splitLines feed ret as ++ splitLines feed ret bs := by
  rcases List.eq_nil_or_concat as with rfl | ⟨before, a, rfl⟩
  · rfl
  · rw [List.concat_eq_append] at h ⊢
    obtain rfl : a = feed := h a (by simp)
    clear h
    -- Whatever has been read of a line when these characters start.
    have hsplit (seen : List α) : splitLinesAfter a ret seen (before ++ a :: bs)
        = splitLinesAfter a ret seen (before ++ [a]) ++ splitLinesAfter a ret [] bs := by
      induction before generalizing seen with
      | nil => simp [splitLinesAfter]
      | cons b before ih =>
        simp only [List.cons_append, splitLinesAfter]
        split
        · rw [ih, List.cons_append]
        · exact ih _
    rw [List.append_assoc]
    exact hsplit []

private theorem encoded_dropReturn (cs : List Char) :
    dropReturn 0x0D (encoded cs) = encoded (dropReturn '\r' cs) := by
  rcases List.eq_nil_or_concat cs with rfl | ⟨before, c, rfl⟩
  · rfl
  · rw [List.concat_eq_append, dropReturn, dropReturn, List.getLast?_concat, List.dropLast_concat]
    by_cases hc : c = '\r'
    · subst hc
      have hbytes : encoded (before ++ ['\r']) = encoded before ++ [0x0D] := encoded_append _ _
      rw [hbytes, List.getLast?_concat, List.dropLast_concat, if_pos rfl, if_pos rfl]
    · -- The last byte is one of the last character.
      have hlast : (encoded (before ++ [c])).getLast? ≠ some 0x0D := by
        intro hlast
        rw [getLast?_encoded_concat] at hlast
        exact hc ((mem_utf8EncodeChar_iff (d := '\r') (by decide)).1
          (List.mem_of_getLast? hlast)).symm
      rw [if_neg hlast, if_neg (by simpa using hc)]

/-- The lines of the bytes of a text are the bytes of its lines. -/
private theorem byteLines_encoded (cs : List Char) :
    byteLines (encoded cs) = (lines cs).map encoded := by
  -- Whatever has been read of a line when these characters start.
  have hsplit (seen : List Char) :
      splitLinesAfter 0x0A 0x0D (encoded seen.reverse).reverse (encoded cs)
        = (splitLinesAfter '\n' '\r' seen cs).map encoded := by
    induction cs generalizing seen with
    | nil =>
      have hempty : (encoded seen.reverse).reverse.isEmpty = seen.isEmpty := by
        rw [Bool.eq_iff_iff, List.isEmpty_iff, List.isEmpty_iff, List.reverse_eq_nil_iff,
          encoded_eq_nil_iff, List.reverse_eq_nil_iff]
      have hnil : encoded [] = [] := rfl
      rw [hnil, splitLinesAfter, splitLinesAfter, hempty, List.reverse_reverse]
      split <;> rfl
    | cons c cs ih =>
      have hcons : encoded (c :: cs) = String.utf8EncodeChar c ++ encoded cs := List.flatMap_cons
      rw [hcons]
      by_cases hc : c = '\n'
      · subst hc
        have hbytes : String.utf8EncodeChar '\n' = [0x0A] := rfl
        rw [hbytes, List.singleton_append, splitLinesAfter, splitLinesAfter, if_pos rfl, if_pos rfl,
          List.reverse_reverse, encoded_dropReturn, List.map_cons]
        exact congrArg _ (ih [])
      · have hfeed : 0x0A ∉ String.utf8EncodeChar c := fun h =>
          hc ((mem_utf8EncodeChar_iff (d := '\n') (by decide)).1 h).symm
        rw [splitLinesAfter_append hfeed, splitLinesAfter, if_neg hc, ← ih (c :: seen),
          List.reverse_cons, encoded_append, List.reverse_append, encoded_singleton]
  exact hsplit []

/-- The lines of a text, each as a text. -/
def linesOf (s : String) : List String := (lines s.toList).map String.ofList

/-- The lines of a text in bytes are those of the text. -/
theorem byteLines_bytes (s : String) : byteLines (bytes s) = (linesOf s).map bytes := by
  rw [bytes_eq_encoded, byteLines_encoded, linesOf, List.map_map]
  refine List.map_congr_left fun line _ => ?_
  rw [Function.comp_apply, bytes_eq_encoded, String.toList_ofList]

/-- That a text is made of **complete lines**. -/
def EndsLine (s : String) : Prop := ∀ c ∈ s.toList.getLast?, c = '\n'

/-- The lines of what follows complete lines are told apart on their own. -/
theorem EndsLine.byteLines_append {s : String} (h : EndsLine s) (rest : List UInt8) :
    byteLines (bytes s ++ rest) = (linesOf s).map bytes ++ byteLines rest := by
  have hfeed : ∀ b ∈ (bytes s).getLast?, b = 0x0A := by
    rw [EndsLine] at h
    rw [bytes_eq_encoded]
    rcases List.eq_nil_or_concat s.toList with hnil | ⟨before, c, hconcat⟩
    · rw [hnil]
      nofun
    · rw [hconcat, List.concat_eq_append] at h ⊢
      obtain rfl : c = '\n' := h c (by simp)
      rw [getLast?_encoded_concat]
      rintro _ ⟨⟩
      rfl
  rw [← byteLines_bytes, byteLines, splitLines_append hfeed]
  rfl

end MiniC.Text
