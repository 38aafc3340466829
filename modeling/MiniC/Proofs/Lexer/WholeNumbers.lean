import Mathlib.Data.List.Induction
import Mathlib.Data.Nat.Digits.Defs
import MiniC.Proofs.Lexer.Exponents
import MiniC.Proofs.Lexer.Iteration

/-!
# Whole numbers

A numeral that holds neither a point nor the mark of an exponent is a run of digits
(`Pattern.isDigit_of_mem_numeral`). The number that digits stand for is told here by the places of
the digits (`Numeral.placeValue`), however many digits there are and however many zeros come first.
If a literal can have that number as its value then it has it, exactly; otherwise the numeral is
reported, and zero stands in for its value (`Numeral.readsExactly_items`). In either case the
scanner goes on right behind the numeral, on the same line (`Lexer.readsExactly_whole`).
-/

namespace MiniC

-- Powers of natural numbers are those of the core library, whatever else is in scope.
attribute [local instance (high)] instPowNat

/-! ### Numerals without a mark -/

namespace Pattern

private theorem head?_of_fractionLength {cs : List Char} (h : fractionLength cs ≠ 0) :
    cs.head? = some '.' := by
  revert h
  fun_cases fractionLength cs with
  | case1 | case3 => exact fun h => absurd rfl h
  | case2 => exact fun _ => rfl

/-- A numeral without a point and without an exponent is digits. -/
private theorem isDigit_of_mem_numeral {dialect : Dialect} {cs : List Char} {n : Nat}
    (h : numeral? dialect cs = some n) (hwhole : ∀ c ∈ cs.take n, c ∉ ['.', 'e', 'E']) :
    ∀ c ∈ cs.take n, c.isDigit = true := by
  obtain ⟨whole, hrun, rfl⟩ := Option.map_eq_some_iff.1 h
  dsimp only at hwhole ⊢
  -- A part that is not empty would start with its mark.
  have hpart {k length : Nat} {mark : Char} (hlength : length ≠ 0)
      (hmark : (cs.drop k).head? = some mark) : mark ∈ cs.take (k + length) := by
    obtain ⟨rest, hrest⟩ := List.head?_eq_some_iff.1 hmark
    obtain ⟨length, rfl⟩ := Nat.exists_eq_succ_of_ne_zero hlength
    rw [List.take_add, hrest, List.take_succ_cons]
    exact List.mem_append_right _ List.mem_cons_self
  have hfraction : fractionLength (cs.drop whole) = 0 := by
    by_contra hne
    have hmem := hpart hne (head?_of_fractionLength hne)
    exact hwhole '.' ((List.take_prefix_take_left (Nat.le_add_right ..)).subset hmem) (by decide)
  rw [hfraction] at hwhole ⊢
  have hexponent : (if dialect.exponents = true then exponentLength (cs.drop (whole + 0)) else 0)
      = 0 := by
    by_contra hne
    split at hne
    · obtain ⟨mark, rest, hdrop, hmark, -⟩ := startsExponent_of_exponentLength hne
      have hmem := hpart hne (congrArg List.head? hdrop)
      rw [if_pos ‹_›] at hwhole
      refine hwhole mark hmem ?_
      simp only [Numeral.isExponentMark, Bool.or_eq_true, decide_eq_true_eq] at hmark
      rcases hmark with rfl | rfl <;> decide
    · exact hne rfl
  rw [hexponent]
  exact fun c hc => of_mem_take_run? hrun hc

end Pattern

/-! ### The number that digits stand for -/

namespace Numeral

/-- The number that digits stand for: the sum of the digits, each of them times the power of ten of
its place. -/
def placeValue (digits : List Char) : Nat :=
  Nat.ofDigits 10 (digits.reverse.map fun c => c.toNat - '0'.toNat)

/-- The value that is counted up digit by digit is that of the places. -/
theorem ofDigits_eq_placeValue (digits : List Char) : ofDigits digits = placeValue digits := by
  induction digits using List.reverseRecOn with
  | nil => rfl
  | append_singleton digits c ih =>
    rw [placeValue, List.reverse_concat, List.map_cons, Nat.ofDigits_cons, ← placeValue, ← ih,
      ofDigits, Nat.ofDigitChars_append, Nat.ofDigitChars_cons, Nat.ofDigitChars_nil]
    exact Nat.add_comm ..

/-- What is yielded for digits **reads them exactly**: it is one token, with the number that they
stand for as its value, if a literal can have that value. Otherwise the digits are reported, and the
value of the token is zero. -/
structure ReadsExactly (digits : List Char) (position : Position) (items : List Item) : Prop where
  exact : placeValue digits ≤ 2 ^ (63 : Nat) - 1 → ∃ value : Int64,
    value.toInt = placeValue digits ∧
      items = [.ok ⟨.number, String.ofList digits, some (.int value), position⟩]
  reported : 2 ^ (63 : Nat) - 1 < placeValue digits →
    items = [.error ⟨.numberParse (String.ofList digits), position⟩,
      .ok ⟨.number, String.ofList digits, some (.int 0), position⟩]

private theorem readsExactly_items {digits : List Char} (h : ∀ c ∈ digits, c.isDigit = true)
    (position : Position) :
    ReadsExactly digits position (Segment.items ⟨some .numeral, digits⟩ position) := by
  have hwhole := isFloat_of_isDigit h
  rw [Segment.items_numeral, report, token]
  refine ⟨fun hle => ?_, fun hlt => ?_⟩
  · have hvalue : value? digits = some (.int (Int64.ofNat (placeValue digits))) := by
      rw [value?, hwhole, ofDigits_eq_placeValue]
      exact if_pos hle
    refine ⟨Int64.ofNat (placeValue digits), Int64.toInt_ofNat_of_lt (by omega), ?_⟩
    rw [hvalue]
    rfl
  · have hvalue : value? digits = none := by
      rw [value?, hwhole, ofDigits_eq_placeValue]
      exact if_neg (Nat.not_le_of_lt hlt)
    rw [hvalue, Option.getD_none, substitute, hwhole]
    rfl

end Numeral

/-! ### Whole numbers of a unit -/

deriving instance DecidableEq for Place

variable {dialect : Dialect} {before digits : List Char}

/-- A numeral of a text that has no point and no exponent is digits. -/
private theorem Place.IsIn.isDigit_of_whole {cs : List Char}
    (h : IsIn dialect cs ⟨before, ⟨some .numeral, digits⟩⟩)
    (hwhole : ∀ c ∈ digits, c ∉ ['.', 'e', 'E']) : ∀ c ∈ digits, c.isDigit = true := by
  obtain ⟨rest, -, -, -, hsegment⟩ := h
  rw [Segment.first] at hsegment
  split at hsegment
  · rename_i n hfirst
    cases hsegment
    exact Pattern.isDigit_of_mem_numeral (Pattern.exists_of_first? hfirst).2 hwhole
  · cases hsegment

/-- **Whole numbers are exact, or reported.** A numeral of a unit that has no point and no exponent
is digits. What is yielded for it, between what is yielded for the text before it and for the text
behind it, reads the digits exactly, on the line where they stand. A scanner that stands before the
digits yields this in one step, and then stands behind them, on the same line. -/
theorem Lexer.readsExactly_whole {source : String}
    (hp : ⟨before, ⟨some .numeral, digits⟩⟩ ∈ Place.all dialect source.toList)
    (hwhole : ∀ c ∈ digits, c ∉ ['.', 'e', 'E']) (unit : Option String) :
    digits ≠ [] ∧ (∀ c ∈ digits, c.isDigit = true) ∧
    ∃ earlier items later after, source.toList = before ++ digits ++ after ∧
      Place.all dialect source.toList = earlier ++ ⟨before, ⟨some .numeral, digits⟩⟩ :: later ∧
      later = Place.allAfter (before ++ digits) (Segment.cut dialect after) ∧
      Numeral.ReadsExactly digits
        ⟨.ofNat (1 + Text.lineFeeds before), unit.getD Position.anonymousUnit⟩ items ∧
      scan dialect unit source
        = earlier.flatMap (Place.items (unit.getD Position.anonymousUnit)) ++ items
          ++ later.flatMap (Place.items (unit.getD Position.anonymousUnit)) ∧
      ∀ l : Lexer, l.dialect = dialect → l.unit = unit.getD Position.anonymousUnit →
        l.StandsBefore before (digits ++ after) →
        ∃ l', l.Takes ⟨Text.byteLength before, digits, items⟩ l' ∧
          l'.StandsBefore (before ++ digits) after ∧ l'.line = l.line := by
  have hin := Place.isIn_of_mem_all hp
  have hdigits := hin.isDigit_of_whole hwhole
  obtain ⟨earlier, after, hsource, hall⟩ := hin.exists_all_eq
  obtain ⟨rest, hne, hrest, -, hsegment⟩ := hin
  refine ⟨?_, hdigits, earlier, _, _, after, hsource, hall, rfl,
    Numeral.readsExactly_items hdigits _, ?_, ?_⟩
  · have htext := Segment.first_text_ne_nil dialect hne
    rwa [← hsegment] at htext
  · rw [scan_eq_flatMap, hall, List.flatMap_append, List.flatMap_cons, List.append_assoc]
    rfl
  · rintro l rfl hunit hstands
    -- The scanner stands before the digits, so it takes them next.
    obtain rfl : rest = digits ++ after := by
      rw [hrest, List.append_assoc] at hsource
      exact List.append_cancel_left hsource
    obtain ⟨htakes, hbehind⟩ := hstands.takes
    rw [← hsegment, hunit] at htakes
    rw [← hsegment, List.drop_left] at hbehind
    refine ⟨_, htakes, hbehind, ?_⟩
    have hlineFeed : '\n' ∉ digits := fun hmem => absurd (hdigits _ hmem) (by decide)
    rw [hbehind.line, hstands.line, Text.lineFeeds, Text.lineFeeds, List.count_append,
      List.count_eq_zero.2 hlineFeed, Nat.add_zero]

/-- `2 ^ 63` is one more than a literal can have as its value. -/
theorem Lexer.readsExactly_whole_tooLarge :
    ⟨"x =\n".toList, ⟨some .numeral, "09223372036854775808".toList⟩⟩
        ∈ Place.all {} "x =\n09223372036854775808;".toList ∧
      (∀ c ∈ "09223372036854775808".toList, c ∉ ['.', 'e', 'E']) ∧
      Numeral.placeValue "09223372036854775808".toList = 2 ^ (63 : Nat) ∧
      ∃ items, Numeral.ReadsExactly "09223372036854775808".toList ⟨2, "shell"⟩ items ∧
        items <:+: scan {} none "x =\n09223372036854775808;" := by
  have hp : ⟨"x =\n".toList, ⟨some .numeral, "09223372036854775808".toList⟩⟩
      ∈ Place.all {} "x =\n09223372036854775808;".toList := by
    decide +kernel
  -- All characters of the numeral are checked, not all characters that there are.
  have hall : ("09223372036854775808".toList.all fun c => c ∉ ['.', 'e', 'E']) = true := by decide
  have hwhole : ∀ c ∈ "09223372036854775808".toList, c ∉ ['.', 'e', 'E'] :=
    fun c hc => of_decide_eq_true (List.all_eq_true.1 hall c hc)
  obtain ⟨-, -, earlier, items, later, after, -, -, -, hitems, hscan, -⟩ :=
    Lexer.readsExactly_whole hp hwhole none
  exact ⟨hp, hwhole, by decide +kernel, items, hitems, _, _, hscan.symm⟩

end MiniC
