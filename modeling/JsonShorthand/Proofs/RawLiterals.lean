import Mathlib
import JsonShorthand.Proofs.Numerals

namespace JsonShorthand

/-- A sign or none, and the factor that it stands for. -/
inductive IsSign : List Char → Int → Prop where
  | absent : IsSign [] 1
  | plus : IsSign ['+'] 1
  | minus : IsSign ['-'] (-1)

def IsDigits (cs : List Char) : Prop := cs ≠ [] ∧ AllDigits cs

/-- The number that digits denote, of which the last counts ones. -/
def digitsValue (cs : List Char) : Nat :=
  Nat.ofDigits 10 (cs.reverse.map fun c => c.toNat - '0'.toNat)

def DenotesInteger (cs : List Char) (n : Int) : Prop :=
  ∃ sign factor digits, IsSign sign factor ∧ IsDigits digits ∧ cs = sign ++ digits ∧
    n = factor * digitsValue digits

/-- The integers of 64 bits with a sign. -/
def FitsInt64 (n : Int) : Prop := -2 ^ 63 ≤ n ∧ n ≤ 2 ^ 63 - 1

/-- The letters of a word, each small or capital. -/
def IsWord (word : String) (cs : List Char) : Prop :=
  List.Forall₂ (fun c letter => c = letter ∨ c = letter.toUpper) cs word.toList

/-- A point and the digits after it, or neither. -/
inductive IsFraction : List Char → List Char → Prop where
  | absent : IsFraction [] []
  | point {digits : List Char} (h : AllDigits digits) : IsFraction ('.' :: digits) digits

/-- An `e` and an integer after it, or neither. -/
inductive IsExponent : List Char → Prop where
  | absent : IsExponent []
  | marked {e : Char} {sign digits : List Char} {factor : Int} (he : e = 'e' ∨ e = 'E')
      (hsign : IsSign sign factor) (hdigits : IsDigits digits) : IsExponent (e :: (sign ++ digits))

/-- Digits with at most one point among them or at either end, and then an exponent. -/
def IsDecimal (cs : List Char) : Prop :=
  ∃ whole point fraction exponent, AllDigits whole ∧ IsFraction point fraction ∧
    whole ++ fraction ≠ [] ∧ IsExponent exponent ∧ cs = whole ++ (point ++ exponent)

/-- A decimal or the name of infinity or of what is no number, with a sign before it or none. -/
def IsFloatNumeral (cs : List Char) : Prop :=
  ∃ sign factor body, IsSign sign factor ∧ cs = sign ++ body ∧
    (IsWord "inf" body ∨ IsWord "infinity" body ∨ IsWord "nan" body ∨ IsDecimal body)

def StartsUnsigned (cs : List Char) : Prop := ∀ c, cs.head? = some c → c ≠ '+' ∧ c ≠ '-'

theorem splitSign_append {sign body : List Char} {factor : Int} (h : IsSign sign factor)
    (hbody : StartsUnsigned body) : splitSign (sign ++ body) = (decide (factor < 0), body) := by
  cases h with
  | plus | minus => rfl
  | absent =>
    rw [List.nil_append, splitSign]
    · rfl
    · rintro cs rfl
      exact (hbody '-' rfl).2 rfl
    · rintro cs rfl
      exact (hbody '+' rfl).1 rfl

theorem exists_isSign (cs : List Char) :
    ∃ sign factor, IsSign sign factor ∧ cs = sign ++ (splitSign cs).2 ∧
      (splitSign cs).1 = decide (factor < 0) := by
  fun_cases splitSign cs with
  | case1 cs => exact ⟨_, _, .minus, rfl, rfl⟩
  | case2 cs => exact ⟨_, _, .plus, rfl, rfl⟩
  | case3 => exact ⟨_, _, .absent, rfl, rfl⟩

theorem IsSign.mul_eq {sign : List Char} {factor : Int} (h : IsSign sign factor) (n : Int) :
    (if factor < 0 then -n else n) = factor * n := by
  cases h <;> simp

theorem StartsUnsigned.of_isDigit {c : Char} (hc : c.isDigit) (cs : List Char) :
    StartsUnsigned (c :: cs) := by
  intro d hd
  obtain rfl : c = d := Option.some.inj hd
  constructor
  all_goals
    rintro rfl
    revert hc
    decide

theorem ofDigitChars_eq_digitsValue (cs : List Char) :
    Nat.ofDigitChars 10 cs 0 = digitsValue cs := by
  induction cs using List.reverseRecOn with
  | nil => rfl
  | append_singleton cs c ih =>
    rw [Nat.ofDigitChars_append, ih, Nat.ofDigitChars_cons, Nat.ofDigitChars_nil, digitsValue,
      digitsValue, List.reverse_append, List.reverse_singleton, List.singleton_append,
      List.map_cons, Nat.ofDigits_cons, Nat.add_comm]

theorem natural?_eq_some_iff {cs : List Char} {n : Nat} :
    natural? cs = some n ↔ IsDigits cs ∧ n = digitsValue cs := by
  have hall : cs.all Char.isDigit ↔ AllDigits cs := List.all_eq_true
  rw [natural?, ofDigitChars_eq_digitsValue, IsDigits, ← hall]
  split
  · next h => simp only [h.1, h.2, ne_eq, not_false_eq_true, and_self, true_and,
      Option.some.injEq, eq_comm]
  · next h => simp only [h, false_and, reduceCtorEq]

theorem IsDigits.startsUnsigned {cs : List Char} (h : IsDigits cs) : StartsUnsigned cs := by
  obtain ⟨hne, hdigits⟩ := h
  obtain ⟨c, cs, rfl⟩ := List.exists_cons_of_ne_nil hne
  exact .of_isDigit (hdigits c List.mem_cons_self) cs

theorem integer?_eq_map (cs : List Char) :
    integer? cs =
      (natural? (splitSign cs).2).map
        fun n : Nat => if (splitSign cs).1 then -(n : Int) else n := by
  simp only [integer?]
  cases natural? (splitSign cs).2 <;> rfl

theorem integer?_eq_some_iff {cs : List Char} {n : Int} :
    integer? cs = some n ↔ DenotesInteger cs n := by
  constructor
  · intro h
    rw [integer?_eq_map] at h
    obtain ⟨m, hm, hvalue⟩ := Option.map_eq_some_iff.1 h
    obtain ⟨hdigits, rfl⟩ := natural?_eq_some_iff.1 hm
    obtain ⟨sign, factor, hsign, hcs, hnegative⟩ := exists_isSign cs
    refine ⟨sign, factor, _, hsign, hdigits, hcs, ?_⟩
    rw [← hvalue, ← hsign.mul_eq, hnegative]
    simp only [decide_eq_true_eq]
  · rintro ⟨sign, factor, digits, hsign, hdigits, rfl, rfl⟩
    have hnatural := natural?_eq_some_iff.2 ⟨hdigits, rfl⟩
    rw [integer?_eq_map, splitSign_append hsign hdigits.startsUnsigned, hnatural, ← hsign.mul_eq]
    simp only [Option.map_some, decide_eq_true_eq]

theorem FitsInt64.toInt_ofInt {n : Int} (h : FitsInt64 n) : (Int64.ofInt n).toInt = n :=
  Int64.toInt_ofInt_of_le h.1 (Int.lt_of_le_sub_one h.2)

theorem int64?_eq_some_iff {n : Int} {m : Int64} :
    int64? n = some m ↔ FitsInt64 n ∧ m.toInt = n := by
  have hmin : Int64.minValue.toInt = -2 ^ 63 := by decide
  have hmax : Int64.maxValue.toInt = 2 ^ 63 - 1 := by decide
  rw [int64?, hmin, hmax, FitsInt64]
  constructor
  · intro h
    obtain ⟨hfits, heq⟩ := Option.ite_none_right_eq_some.1 h
    obtain rfl := Option.some.inj heq
    exact ⟨hfits, FitsInt64.toInt_ofInt hfits⟩
  · rintro ⟨hfits, rfl⟩
    rw [if_pos hfits, Int64.ofInt_toInt]

theorem Decimal.isSome_exponent?_iff {cs : List Char} : (exponent? cs).isSome ↔ IsExponent cs := by
  constructor
  · intro h
    cases cs with
    | nil => exact .absent
    | cons e cs =>
      obtain ⟨sign, factor, hsign, hcs, -⟩ := exists_isSign cs
      have hparts : (e = 'e' ∨ e = 'E') ∧ (splitSign cs).2 ≠ [] ∧
          (splitSign cs).2.all Char.isDigit := by
        by_contra hparts
        simp only [exponent?, if_neg hparts] at h
        contradiction
      rw [hcs]
      exact .marked hparts.1 hsign ⟨hparts.2.1, List.all_eq_true.1 hparts.2.2⟩
  · intro h
    cases h with
    | absent => rfl
    | @marked e sign digits factor he hsign hdigits =>
      have hall : digits.all Char.isDigit := List.all_eq_true.2 hdigits.2
      simp [exponent?, splitSign_append hsign hdigits.startsUnsigned, he, hdigits.1, hall]

theorem IsExponent.not_isDigit {cs : List Char} (h : IsExponent cs) :
    ∀ d, cs.head? = some d → ¬ d.isDigit ∧ d ≠ '.' := by
  cases h with
  | absent => simp
  | marked he hsign hdigits =>
    intro d hd
    obtain rfl := Option.some.inj hd
    rcases he with rfl | rfl <;> decide

theorem allDigits_takeWhile (cs : List Char) : AllDigits (cs.takeWhile Char.isDigit) :=
  List.all_eq_true.1 List.all_takeWhile

theorem Decimal.exists_isFraction (cs : List Char) :
    ∃ point, IsFraction point (splitFraction cs).1 ∧ cs = point ++ (splitFraction cs).2 := by
  fun_cases splitFraction cs with
  | case1 cs => exact ⟨_, .point (allDigits_takeWhile cs), by simp⟩
  | case2 => exact ⟨_, .absent, rfl⟩

theorem IsFraction.splitFraction_append {point fraction exponent : List Char}
    (h : IsFraction point fraction) (hexponent : IsExponent exponent) :
    Decimal.splitFraction (point ++ exponent) = (fraction, exponent) := by
  cases h with
  | point hdigits =>
    exact Decimal.splitFraction_point hdigits fun d hd => (hexponent.not_isDigit d hd).1
  | absent =>
    rw [List.nil_append, Decimal.splitFraction]
    rintro cs rfl
    exact (hexponent.not_isDigit '.' rfl).2 rfl

theorem IsFraction.not_isDigit {point fraction exponent : List Char} (h : IsFraction point fraction)
    (hexponent : IsExponent exponent) :
    ∀ d, (point ++ exponent).head? = some d → ¬ d.isDigit := by
  cases h with
  | absent => exact fun d hd => (hexponent.not_isDigit d hd).1
  | point hdigits =>
    intro d hd
    obtain rfl := Option.some.inj hd
    decide

theorem Decimal.isSome_ofText?_iff {cs : List Char} : (ofText? cs).isSome ↔ IsDecimal cs := by
  constructor
  · intro h
    obtain ⟨point, hpoint, hcs⟩ := exists_isFraction (cs.dropWhile Char.isDigit)
    refine ⟨_, point, _, (splitFraction (cs.dropWhile Char.isDigit)).2, allDigits_takeWhile cs,
      hpoint, ?_, ?_, ?_⟩
    · intro hempty
      simp [ofText?, hempty] at h
    · rw [← isSome_exponent?_iff]
      by_contra hexponent
      have hnone := Option.not_isSome_iff_eq_none.1 hexponent
      simp [ofText?, hnone] at h
    · rw [← hcs, List.takeWhile_append_dropWhile]
  · rintro ⟨whole, point, fraction, exponent, hwhole, hpoint, hne, hexponent, rfl⟩
    obtain ⟨e, he⟩ := Option.isSome_iff_exists.1 (isSome_exponent?_iff.2 hexponent)
    rw [ofText?_of_parts hwhole (hpoint.not_isDigit hexponent)
      (hpoint.splitFraction_append hexponent) he hne]
    rfl

theorem IsDecimal.startsUnsigned {cs : List Char} (h : IsDecimal cs) : StartsUnsigned cs := by
  obtain ⟨whole, point, fraction, exponent, hwhole, hpoint, hne, hexponent, rfl⟩ := h
  cases whole with
  | cons c whole => exact .of_isDigit (hwhole c List.mem_cons_self) _
  | nil =>
    cases hpoint with
    | absent => exact absurd rfl hne
    | point hdigits =>
      intro c hc
      obtain rfl : '.' = c := Option.some.inj hc
      decide

theorem toLower_eq_iff {c letter : Char} (h : letter.isLower) :
    c.toLower = letter ↔ c = letter ∨ c = letter.toUpper := by
  have hletter : letter.toLower = letter :=
    Char.toLower_eq_of_not_isUpper (Char.not_isUpper_of_isLower h)
  constructor
  · rintro rfl
    by_cases hupper : c.isUpper
    · right
      rw [Char.toUpper_toLower_eq_toUpper,
        Char.toUpper_eq_of_not_isLower (Char.not_isLower_of_isUpper hupper)]
    · exact .inl (Char.toLower_eq_of_not_isUpper hupper).symm
  · rintro (rfl | rfl)
    · exact hletter
    · rw [Char.toLower_toUpper_eq_toLower, hletter]

theorem isWord_iff {word : String} (h : word.toList.all Char.isLower) {cs : List Char} :
    IsWord word cs ↔ cs.map Char.toLower = word.toList := by
  rw [IsWord]
  generalize word.toList = letters at h ⊢
  induction cs generalizing letters with
  | nil => simp [eq_comm]
  | cons c cs ih =>
    cases letters with
    | nil => simp
    | cons letter letters =>
      obtain ⟨hletter, hletters⟩ := Bool.and_eq_true_iff.1 h
      rw [List.map_cons, List.cons.injEq, List.forall₂_cons, toLower_eq_iff hletter,
        ih letters hletters]

theorem IsWord.startsUnsigned {word : String} {cs : List Char} (h : IsWord word cs)
    (hword : word.toList.all Char.isLower) : StartsUnsigned cs := by
  have hlower := (isWord_iff hword).1 h
  intro c hc
  obtain ⟨rest, rfl⟩ := List.head?_eq_some_iff.1 hc
  have hfirst : c.toLower.isLower :=
    List.all_eq_true.1 hword c.toLower (hlower ▸ List.mem_cons_self)
  constructor
  all_goals
    rintro rfl
    revert hfirst
    decide

theorem Numeral.isSome_ofText?_iff {cs : List Char} :
    (ofText? cs).isSome ↔
      IsWord "inf" cs ∨ IsWord "infinity" cs ∨ IsWord "nan" cs ∨ IsDecimal cs := by
  rw [ofText?, isWord_iff (by decide), isWord_iff (by decide), isWord_iff (by decide), ← or_assoc]
  split
  · next h => simp only [h, true_or, Option.isSome_some]
  · next h =>
    split
    · next hnan => simp only [hnan, true_or, or_true, Option.isSome_some]
    · next hnan =>
      rw [or_iff_right h, or_iff_right hnan, Option.isSome_map, Decimal.isSome_ofText?_iff]

theorem Binary64.isSome_ofText?_iff {cs : List Char} :
    (ofText? cs).isSome ↔ IsFloatNumeral cs := by
  constructor
  · intro h
    obtain ⟨sign, factor, hsign, hcs, -⟩ := exists_isSign cs
    refine ⟨sign, factor, _, hsign, hcs, Numeral.isSome_ofText?_iff.1 ?_⟩
    rwa [ofText?, Option.isSome_map] at h
  · rintro ⟨sign, factor, body, hsign, rfl, hbody⟩
    have hunsigned : StartsUnsigned body := by
      rcases hbody with h | h | h | h
      · exact h.startsUnsigned (by decide)
      · exact h.startsUnsigned (by decide)
      · exact h.startsUnsigned (by decide)
      · exact h.startsUnsigned
    rw [ofText?, splitSign_append hsign hunsigned]
    simpa using Numeral.isSome_ofText?_iff.2 hbody

theorem DenotesInteger.isFloatNumeral {cs : List Char} {n : Int} (h : DenotesInteger cs n) :
    IsFloatNumeral cs := by
  obtain ⟨sign, factor, digits, hsign, hdigits, rfl, -⟩ := h
  refine ⟨sign, factor, digits, hsign, rfl, .inr (.inr (.inr ?_))⟩
  exact ⟨digits, [], [], [], hdigits.2, .absent, by simpa using hdigits.1, .absent, by simp⟩

theorem DenotesInteger.eq {cs : List Char} {n m : Int} (hn : DenotesInteger cs n)
    (hm : DenotesInteger cs m) : n = m :=
  Option.some.inj ((integer?_eq_some_iff.2 hn).symm.trans (integer?_eq_some_iff.2 hm))

theorem bind_int64?_eq_some_iff {cs : List Char} {m : Int64} :
    (integer? cs).bind int64? = some m ↔ DenotesInteger cs m.toInt ∧ FitsInt64 m.toInt := by
  simp only [Option.bind_eq_some_iff, integer?_eq_some_iff, int64?_eq_some_iff]
  constructor
  · rintro ⟨n, hn, hfits, rfl⟩
    exact ⟨hn, hfits⟩
  · rintro ⟨hn, hfits⟩
    exact ⟨_, hn, hfits, rfl⟩

theorem bind_int64?_eq_none_iff {cs : List Char} :
    (integer? cs).bind int64? = none ↔ ¬ ∃ n, DenotesInteger cs n ∧ FitsInt64 n := by
  simp only [Option.eq_none_iff_forall_ne_some, ne_eq, bind_int64?_eq_some_iff, not_exists]
  constructor
  · rintro h n ⟨hn, hfits⟩
    exact h (.ofInt n) (hfits.toInt_ofInt.symm ▸ ⟨hn, hfits⟩)
  · exact fun h m => h m.toInt

namespace Value

section Typing

variable {text : String} (htrue : text ≠ "true") (hfalse : text ≠ "false") (hnull : text ≠ "null")

include htrue hfalse hnull

theorem ofRaw?_eq_or :
    ofRaw? text = (((integer? text.toList).bind int64?).map integer).or
      ((Binary64.ofText? text.toList).map float) := by
  rw [ofRaw?, if_neg htrue, if_neg hfalse, if_neg hnull]
  cases (integer? text.toList).bind int64? <;> rfl

theorem ofRaw?_eq_integer_iff {m : Int64} :
    ofRaw? text = some (.integer m) ↔
      DenotesInteger text.toList m.toInt ∧ FitsInt64 m.toInt := by
  rw [ofRaw?_eq_or htrue hfalse hnull, ← bind_int64?_eq_some_iff]
  cases (integer? text.toList).bind int64? <;> simp

theorem ofRaw?_eq_float_iff :
    (∃ x, ofRaw? text = some (.float x)) ↔
      (¬ ∃ n, DenotesInteger text.toList n ∧ FitsInt64 n) ∧ IsFloatNumeral text.toList := by
  rw [ofRaw?_eq_or htrue hfalse hnull, ← bind_int64?_eq_none_iff, ← Binary64.isSome_ofText?_iff,
    Option.isSome_iff_exists]
  cases (integer? text.toList).bind int64? <;> simp

theorem ofRaw?_eq_none_iff :
    ofRaw? text = none ↔
      (¬ ∃ n, DenotesInteger text.toList n ∧ FitsInt64 n) ∧ ¬ IsFloatNumeral text.toList := by
  rw [ofRaw?_eq_or htrue hfalse hnull, ← bind_int64?_eq_none_iff, ← Binary64.isSome_ofText?_iff]
  cases (integer? text.toList).bind int64? <;> simp

end Typing

/-- Apart from the three words, a raw literal is an integer just if it is written as one that fits
64 bits, a floating-point number just if it is any other numeral, and otherwise nothing. Null, the
truth values and the integers are read back from their JSON texts. -/
theorem ofRaw?_typing :
    (∀ text : String, text ≠ "true" → text ≠ "false" → text ≠ "null" →
      (∀ n : Int, (∃ m : Int64, m.toInt = n ∧ ofRaw? text = some (.integer m)) ↔
        DenotesInteger text.toList n ∧ FitsInt64 n) ∧
      ((∃ x, ofRaw? text = some (.float x)) ↔
        (¬ ∃ n, DenotesInteger text.toList n ∧ FitsInt64 n) ∧ IsFloatNumeral text.toList) ∧
      (ofRaw? text = none ↔
        (¬ ∃ n, DenotesInteger text.toList n ∧ FitsInt64 n) ∧ ¬ IsFloatNumeral text.toList) ∧
      ∀ n, DenotesInteger text.toList n → ¬ FitsInt64 n → ∃ x, ofRaw? text = some (.float x)) ∧
    ∀ v : Value, (v = null ∨ (∃ b, v = boolean b) ∨ ∃ n, v = integer n) →
      ofRaw? v.toJson = some v := by
  refine ⟨fun text htrue hfalse hnull => ⟨fun n => ?_, ?_, ?_, fun n hn hfits => ?_⟩,
    fun v hv => ?_⟩
  · constructor
    · rintro ⟨m, rfl, hread⟩
      exact (ofRaw?_eq_integer_iff htrue hfalse hnull).1 hread
    · intro hn
      have hm := hn.2.toInt_ofInt
      exact ⟨.ofInt n, hm, (ofRaw?_eq_integer_iff htrue hfalse hnull).2 (hm.symm ▸ hn)⟩
  · exact ofRaw?_eq_float_iff htrue hfalse hnull
  · exact ofRaw?_eq_none_iff htrue hfalse hnull
  · refine (ofRaw?_eq_float_iff htrue hfalse hnull).2 ⟨?_, hn.isFloatNumeral⟩
    rintro ⟨other, hother, hfits'⟩
    obtain rfl : n = other := hn.eq hother
    exact hfits hfits'
  · have hraw : v.IsRaw ∧ v.compact = v.scalar := by
      rcases hv with rfl | ⟨b, rfl⟩ | ⟨n, rfl⟩ <;> exact ⟨trivial, rfl⟩
    rw [toJson, hraw.2]
    exact ofRaw?_scalar hraw.1

/-- The greatest integer, with zeros in front of it, and the next one. -/
theorem ofRaw?_typing_limits :
    (∃ m : Int64, m.toInt = 2 ^ 63 - 1 ∧ ofRaw? "+009223372036854775807" = some (.integer m)) ∧
      (∃ x, ofRaw? "9223372036854775808" = some (.float x)) ∧
      ofRaw? "-" = none ∧
      ofRaw? (integer Int64.minValue).toJson = some (integer Int64.minValue) := by
  have hgreatest : DenotesInteger "+009223372036854775807".toList (2 ^ 63 - 1) :=
    integer?_eq_some_iff.1 (by decide)
  have hnext : DenotesInteger "9223372036854775808".toList (2 ^ 63) :=
    integer?_eq_some_iff.1 (by decide)
  have hsign : ¬ ∃ n, DenotesInteger "-".toList n ∧ FitsInt64 n :=
    bind_int64?_eq_none_iff.1 (by decide)
  have hsignFloat : ¬ IsFloatNumeral "-".toList := mt Binary64.isSome_ofText?_iff.2 (by decide)
  refine ⟨?_, ?_, ?_, ofRaw?_typing.2 _ (.inr (.inr ⟨_, rfl⟩))⟩
  · exact ((ofRaw?_typing.1 _ (by decide) (by decide) (by decide)).1 _).2
      ⟨hgreatest, by norm_num [FitsInt64]⟩
  · exact (ofRaw?_typing.1 _ (by decide) (by decide) (by decide)).2.2.2 _ hnext
      (by norm_num [FitsInt64])
  · exact (ofRaw?_typing.1 _ (by decide) (by decide) (by decide)).2.2.1.2 ⟨hsign, hsignFloat⟩

end Value

end JsonShorthand
