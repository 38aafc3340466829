import Mathlib.Data.List.TakeWhile
import MiniC.Proofs.Binary64.ReadBack
import MiniC.Proofs.Syntax.WellFormed
import MiniC.Syntax.Render
import MiniC.Token.Numeral

/-!
# Numerals of numbers

A number of a tree is written as a numeral that has the number as its value
(`Number.value?_render`), if it is not negative. The numeral has no exponent, and it has a point
only between digits (`Numeral.IsPlain`).
-/

namespace MiniC

namespace Numeral

/-- A numeral without an exponent: digits, or digits before and after a point. -/
inductive IsPlain : List Char → Prop
  | whole {ds : List Char} : ds ≠ [] → (∀ d ∈ ds, d.isDigit = true) → IsPlain ds
  | point {ds es : List Char} : ds ≠ [] → (∀ d ∈ ds, d.isDigit = true) → es ≠ [] →
      (∀ d ∈ es, d.isDigit = true) → IsPlain (ds ++ '.' :: es)

/-- A numeral starts with a digit. -/
theorem IsPlain.exists_cons {text : List Char} (h : IsPlain text) :
    ∃ c cs, text = c :: cs ∧ c.isDigit = true := by
  cases h with
  | whole hne hdigits =>
    obtain ⟨c, cs, rfl⟩ := List.exists_cons_of_ne_nil hne
    exact ⟨c, cs, rfl, hdigits c List.mem_cons_self⟩
  | point hne hdigits _ _ =>
    obtain ⟨c, cs, rfl⟩ := List.exists_cons_of_ne_nil hne
    exact ⟨c, _, rfl, hdigits c List.mem_cons_self⟩

private theorem ne_point_of_isDigit {c : Char} (h : c.isDigit = true) : c ≠ '.' := by
  rintro rfl
  cases h

theorem isExponentMark_of_isDigit {c : Char} (h : c.isDigit = true) : isExponentMark c = false := by
  cases hmark : isExponentMark c with
  | false => rfl
  | true =>
    simp only [isExponentMark, Bool.or_eq_true, decide_eq_true_eq] at hmark
    rcases hmark with rfl | rfl <;> cases h

theorem isFloat_of_isDigit {ds : List Char} (h : ∀ d ∈ ds, d.isDigit = true) :
    isFloat ds = false := by
  rw [isFloat, List.any_eq_false]
  intro d hd
  simp [ne_point_of_isDigit (h d hd), isExponentMark_of_isDigit (h d hd)]

/-- The value of digits is the number they stand for. -/
private theorem value?_toDigits {n : Nat} (h : n ≤ maxInt) :
    value? (Nat.toDigits 10 n) = some (.int (Int64.ofNat n)) := by
  have hdigits : ∀ d ∈ Nat.toDigits 10 n, d.isDigit = true := fun d hd =>
    Nat.isDigit_of_mem_toDigits (by decide) (by decide) hd
  have hvalue : ofDigits (Nat.toDigits 10 n) = n := Nat.ofDigitChars_ten_toDigits
  simp [value?, isFloat_of_isDigit hdigits, hvalue, h]

/-- The value of digits before and after a point is the nearest number. -/
private theorem value?_point {ds es : List Char} {x : Binary64} (hds : ∀ d ∈ ds, d.isDigit = true)
    (hes : ∀ d ∈ es, d.isDigit = true) (hfinite : x.isFinite = true)
    (hx : Binary64.ofDecimal ⟨ofDigits (ds ++ es), -(es.length : Int)⟩ = x) :
    value? (ds ++ '.' :: es) = some (.float x) := by
  have hfloat : isFloat (ds ++ '.' :: es) = true := by simp [isFloat]
  have hmantissa : ∀ c ∈ ds ++ '.' :: es, (!isExponentMark c) = true := by
    intro c hc
    rw [Bool.not_eq_true']
    rcases List.mem_append.1 hc with hc | hc
    · exact isExponentMark_of_isDigit (hds c hc)
    · rcases List.mem_cons.1 hc with rfl | hc
      · rfl
      · exact isExponentMark_of_isDigit (hes c hc)
  have htake := List.takeWhile_eq_self_iff.2 hmantissa
  have hdrop := List.dropWhile_eq_nil_iff.2 hmantissa
  have hwhole : ∀ c ∈ ds, decide (c ≠ '.') = true := fun c hc =>
    decide_eq_true (ne_point_of_isDigit (hds c hc))
  have hbefore : (ds ++ '.' :: es).takeWhile (fun c => decide (c ≠ '.')) = ds := by
    rw [List.takeWhile_append_of_pos hwhole, List.takeWhile_cons, if_neg (by decide),
      List.append_nil]
  have hafter : (ds ++ '.' :: es).dropWhile (fun c => decide (c ≠ '.')) = '.' :: es := by
    rw [List.dropWhile_append_of_pos hwhole, List.dropWhile_cons, if_neg (by decide)]
  have hdecimal : decimal (ds ++ '.' :: es) = ⟨ofDigits (ds ++ es), -(es.length : Int)⟩ := by
    rw [decimal, htake, hdrop, hbefore, hafter]
    simp [signedExponent, exponentOfDigits]
  simp [value?, hfloat, hdecimal, hx, hfinite]

end Numeral

/-! ### The numeral of a number -/

/-- The literal that a number is the value of. -/
def Number.literal : Number → Literal
  | .int value => .int value
  | .float value => .float value

namespace Decimal

private theorem isDigit_of_mem_replicate {n : Nat} {c : Char} (hc : c ∈ List.replicate n '0') :
    c.isDigit = true := by
  rw [List.eq_of_mem_replicate hc]
  rfl

theorem isDigit_of_mem_toDigits {n : Nat} {c : Char} (hc : c ∈ Nat.toDigits 10 n) :
    c.isDigit = true :=
  Nat.isDigit_of_mem_toDigits (by decide) (by decide) hc

/-- A whole decimal number in positional form is digits. -/
private theorem positional_of_nonneg {d : Decimal} (h : 0 ≤ d.exponent) :
    d.positional = Nat.toDigits 10 d.digits ++ List.replicate d.exponent.toNat '0' := by
  rw [positional, if_pos h]

/-- Any other decimal number in positional form is its digits, with a point before as many of them
as it has places. -/
private theorem positional_of_neg {d : Decimal} (h : d.exponent < 0) :
    ∃ ds es, d.positional = ds ++ '.' :: es ∧ ds ≠ [] ∧ es ≠ [] ∧
      (∀ c ∈ ds ++ es, c.isDigit = true) ∧ Numeral.ofDigits (ds ++ es) = d.digits ∧
      -(es.length : Int) = d.exponent := by
  obtain ⟨digits, exponent⟩ := d
  obtain ⟨places, rfl⟩ : ∃ places : Nat, exponent = -((places : Int) + 1) :=
    ⟨(-exponent).toNat - 1, by simp only at h; omega⟩
  -- The digits are padded with zeros, so that one of them at least stands before the point.
  generalize hzeros : List.replicate (places + 1 + 1 - (Nat.toDigits 10 digits).length) '0' = zeros
  generalize hpadded : zeros ++ Nat.toDigits 10 digits = padded
  have hlength : places + 1 + 1 ≤ padded.length := by
    rw [← hpadded, ← hzeros, List.length_append, List.length_replicate]
    omega
  have happend : padded.take (padded.length - (places + 1)) ++
      padded.drop (padded.length - (places + 1)) = padded := List.take_append_drop ..
  have hafter : (padded.drop (padded.length - (places + 1))).length = places + 1 := by
    rw [List.length_drop]
    omega
  refine ⟨padded.take (padded.length - (places + 1)), padded.drop (padded.length - (places + 1)),
    ?_, ?_, ?_, ?_, ?_, ?_⟩
  · have hcount : (-(-((places : Int) + 1))).toNat = places + 1 := by omega
    simp only [positional, hcount, hzeros, hpadded]
    rw [if_neg (by omega)]
  · rw [ne_eq, ← List.length_eq_zero_iff, List.length_take]
    omega
  · rw [ne_eq, ← List.length_eq_zero_iff, hafter]
    omega
  · intro c hc
    rw [happend, ← hpadded, ← hzeros] at hc
    rcases List.mem_append.1 hc with hc | hc
    · exact isDigit_of_mem_replicate hc
    · exact isDigit_of_mem_toDigits hc
  · rw [happend, ← hpadded, ← hzeros, Numeral.ofDigits, Nat.ofDigitChars_append,
      Nat.ofDigitChars_replicate_zero, Nat.mul_zero, Nat.ofDigitChars_ten_toDigits]
  · rw [hafter, Int.natCast_add, Int.natCast_one]

end Decimal

namespace Number

/-- The text of a finite number without a sign. -/
private theorem toList_plain {x : Binary64} (hfinite : x.isFinite = true)
    (hsign : x.isNegative = false) :
    x.plain.toList = (Binary64.shortest x.magnitude).positional := by
  have hnan : x.isNaN = false := by
    simp only [Binary64.isFinite, Binary64.isNaN, decide_eq_true_eq,
      decide_eq_false_iff_not] at hfinite ⊢
    omega
  simp [Binary64.plain, Binary64.signed, hnan, hfinite, hsign]

/-- A whole number of the format is written with a zero behind the point. -/
private theorem value?_render_of_nonneg {x : Binary64} (hfinite : x.isFinite = true)
    (hsign : x.isNegative = false) {exponent : Nat}
    (hexponent : (Binary64.shortest x.magnitude).exponent = exponent) :
    ∃ ds, (Number.float x).render.toList = ds ++ '.' :: ['0'] ∧ ds ≠ [] ∧
      (∀ d ∈ ds, d.isDigit = true) ∧
      Binary64.ofDecimal ⟨Numeral.ofDigits (ds ++ ['0']), -1⟩ = x := by
  have hmagnitude : x.magnitude < Binary64.infinityMagnitude := of_decide_eq_true hfinite
  have hread := Binary64.decimalMagnitude_shortest (Nat.le_of_lt hmagnitude)
  have htext := toList_plain hfinite hsign
  generalize Binary64.shortest x.magnitude = d at hexponent hread htext
  obtain ⟨digits, e⟩ := d
  simp only at hexponent
  rw [hexponent] at hread htext
  rw [Decimal.positional_of_nonneg (Int.natCast_nonneg exponent)] at htext
  simp only [Int.toNat_natCast] at htext
  have hdigits : ∀ c ∈ Nat.toDigits 10 digits ++ List.replicate exponent '0',
      c.isDigit = true := by
    intro c hc
    rcases List.mem_append.1 hc with hc | hc
    · exact Decimal.isDigit_of_mem_toDigits hc
    · exact Decimal.isDigit_of_mem_replicate hc
  -- The text of the number has no point yet, so the zero is added.
  have hpoint : x.plain.toList.contains '.' = false := by
    rw [htext, List.contains_eq_mem, decide_eq_false_iff_not]
    intro hmem
    exact Numeral.ne_point_of_isDigit (hdigits _ hmem) rfl
  have hvalue : Numeral.ofDigits (Nat.toDigits 10 digits ++ List.replicate exponent '0' ++ ['0'])
      = digits * 10 ^ exponent * 10 := by
    have hzero : ['0'] = List.replicate 1 '0' := rfl
    rw [hzero, Numeral.ofDigits, Nat.ofDigitChars_append, Nat.ofDigitChars_append,
      Nat.ofDigitChars_ten_toDigits, Nat.ofDigitChars_replicate_zero,
      Nat.ofDigitChars_replicate_zero, Nat.pow_one, Nat.mul_comm, Nat.mul_comm digits]
  refine ⟨_, ?_, ?_, hdigits, ?_⟩
  · rw [render, if_neg (Bool.eq_false_iff.1 hpoint), String.toList_append, htext]
    rfl
  · simp [Nat.toDigits_ne_nil]
  · rw [Binary64.ofDecimal, hvalue, Binary64.decimalMagnitude_point hmagnitude hread,
      Binary64.ofMagnitude_magnitude hsign]

/-- **A number reads back.** Its text is a numeral without an exponent, and the value of the numeral
is the number. -/
theorem value?_render {number : Number} (h : number.WellFormed) :
    Numeral.IsPlain number.render.toList ∧
      Numeral.value? number.render.toList = some number.literal := by
  cases number with
  | int value =>
    have hnonneg : 0 ≤ value.toInt := h
    have hlt := value.toInt_lt
    have hmax : value.toInt.toNat ≤ Numeral.maxInt := by
      rw [Numeral.maxInt]
      omega
    have htext : (Number.int value).render.toList = Nat.toDigits 10 value.toInt.toNat := by
      rw [render, Int.toString_eq_repr, Int.repr_eq_if, if_pos hnonneg, Nat.toList_repr]
    have hvalue : Int64.ofNat value.toInt.toNat = value := by
      apply Int64.toInt.inj
      rw [Int64.toInt_ofNat_of_lt (by omega), Int.toNat_of_nonneg hnonneg]
    rw [htext, Numeral.value?_toDigits hmax, hvalue]
    exact ⟨.whole Nat.toDigits_ne_nil fun _ => Decimal.isDigit_of_mem_toDigits, rfl⟩
  | float x =>
    obtain ⟨hfinite, hsign⟩ := h
    rcases Int.lt_or_le (Binary64.shortest x.magnitude).exponent 0 with hexponent | hexponent
    · obtain ⟨ds, es, htext, hds, hes, hdigits, hvalue, hplaces⟩ :=
        Decimal.positional_of_neg hexponent
      have hmagnitude : x.magnitude < Binary64.infinityMagnitude := of_decide_eq_true hfinite
      have hread : Binary64.ofDecimal ⟨Numeral.ofDigits (ds ++ es), -(es.length : Int)⟩ = x := by
        rw [hvalue, hplaces, Binary64.ofDecimal,
          Binary64.decimalMagnitude_shortest (Nat.le_of_lt hmagnitude),
          Binary64.ofMagnitude_magnitude hsign]
      rw [← toList_plain hfinite hsign] at htext
      have hrender : (Number.float x).render.toList = ds ++ '.' :: es := by
        rw [render, if_pos (by simp [htext]), htext]
      have hds' : ∀ d ∈ ds, d.isDigit = true := fun d hd => hdigits d (List.mem_append_left _ hd)
      have hes' : ∀ d ∈ es, d.isDigit = true := fun d hd => hdigits d (List.mem_append_right _ hd)
      rw [hrender, Numeral.value?_point hds' hes' hfinite hread]
      exact ⟨.point hds hds' hes hes', rfl⟩
    · obtain ⟨exponent, hexponent⟩ := Int.eq_ofNat_of_zero_le hexponent
      obtain ⟨ds, hrender, hds, hdigits, hread⟩ :=
        value?_render_of_nonneg hfinite hsign hexponent
      have hzero : ∀ d ∈ ['0'], d.isDigit = true := List.all_eq_true.1 rfl
      rw [hrender, Numeral.value?_point hdigits hzero hfinite hread]
      exact ⟨.point hds hdigits (List.cons_ne_nil _ _) hzero, rfl⟩

end Number

end MiniC
