import Mathlib
import JsonShorthand.Proofs.Rounding
import JsonShorthand.Proofs.Source
import JsonShorthand.Value.Json
import JsonShorthand.Value.Raw

namespace JsonShorthand

def AllDigits (cs : List Char) : Prop := ∀ c ∈ cs, c.isDigit

theorem allDigits_append_iff {cs ds : List Char} :
    AllDigits (cs ++ ds) ↔ AllDigits cs ∧ AllDigits ds := by
  simp only [AllDigits, List.mem_append]
  grind

theorem allDigits_cons_iff {c : Char} {cs : List Char} :
    AllDigits (c :: cs) ↔ c.isDigit ∧ AllDigits cs := List.forall_mem_cons

theorem allDigits_toDigits (n : Nat) : AllDigits (Nat.toDigits 10 n) := by
  intro c hc
  exact Nat.isDigit_of_mem_toDigits (by decide) (by decide) hc

theorem allDigits_replicate (zeros : Nat) : AllDigits (List.replicate zeros '0') := by
  intro c hc
  obtain rfl := (List.mem_replicate.1 hc).2
  decide

theorem natural?_of_allDigits {cs : List Char} (hne : cs ≠ []) (h : AllDigits cs) :
    natural? cs = some (Nat.ofDigitChars 10 cs 0) := by
  rw [natural?, if_pos ⟨hne, List.all_eq_true.2 h⟩]

theorem splitSign_of_isDigit {c : Char} (hc : c.isDigit) (cs : List Char) :
    splitSign (c :: cs) = (false, c :: cs) := by
  unfold splitSign
  split
  case h_3 => rfl
  all_goals simp_all [Char.isDigit]

theorem Json.splitSign_integer (n : Int) :
    splitSign (integer n) = (decide (n < 0), Nat.toDigits 10 n.natAbs) := by
  have hne : Nat.toDigits 10 n.natAbs ≠ [] := Nat.toDigits_ne_nil
  obtain ⟨c, cs, hdigits⟩ := List.exists_cons_of_ne_nil hne
  have hc : c.isDigit := allDigits_toDigits n.natAbs c (by simp [hdigits])
  unfold integer
  by_cases hn : n < 0
  · rw [if_pos hn, decide_eq_true hn]
    rfl
  · rw [if_neg hn, decide_eq_false hn, List.nil_append, hdigits]
    exact splitSign_of_isDigit hc cs

theorem integer?_integer (n : Int) : integer? (Json.integer n) = some n := by
  have hnatural : natural? (Nat.toDigits 10 n.natAbs) = some n.natAbs := by
    rw [natural?_of_allDigits Nat.toDigits_ne_nil (allDigits_toDigits _),
      Nat.ofDigitChars_ten_toDigits]
  have habs : (if n < 0 then -(n.natAbs : Int) else n.natAbs) = n := by
    split <;> omega
  rw [integer?, Json.splitSign_integer]
  simpa [hnatural] using habs

theorem le_ofDigitChars (cs : List Char) (n : Nat) : n ≤ Nat.ofDigitChars 10 cs n := by
  induction cs generalizing n with
  | nil => simp
  | cons c cs ih =>
    rw [Nat.ofDigitChars_cons]
    have := ih (10 * n + (c.toNat - '0'.toNat))
    omega

/-- An exponent is cut off only beyond the limit. -/
theorem Decimal.exponentOfDigits_eq {cs : List Char}
    (h : Nat.ofDigitChars 10 cs 0 < exponentLimit) :
    exponentOfDigits cs = Nat.ofDigitChars 10 cs 0 := by
  have key : ∀ (cs : List Char) (n : Nat), Nat.ofDigitChars 10 cs n < exponentLimit →
      cs.foldl (fun e c => if e < exponentLimit then 10 * e + (c.toNat - '0'.toNat) else e) n =
        Nat.ofDigitChars 10 cs n := by
    intro cs
    induction cs with
    | nil => simp
    | cons c cs ih =>
      intro n hn
      rw [Nat.ofDigitChars_cons] at hn ⊢
      have hle := le_ofDigitChars cs (10 * n + (c.toNat - '0'.toNat))
      rw [List.foldl_cons, if_pos (by omega), ih _ hn]
  exact key cs 0 h

theorem Json.allDigits_significantDigits (n : Nat) : AllDigits (significantDigits n) := by
  unfold significantDigits
  split
  · simp [AllDigits]
  · intro c hc
    have hmem := (List.dropWhile_sublist _).subset (List.mem_reverse.1 hc)
    exact allDigits_toDigits n c (List.mem_reverse.1 hmem)

theorem Json.significantDigits_ne_nil (n : Nat) : significantDigits n ≠ [] := by
  unfold significantDigits
  split
  · simp
  · assumption

/-- Only zeros are missing at the end. -/
theorem Json.exists_toDigits_eq (n : Nat) :
    ∃ zeros, Nat.toDigits 10 n = significantDigits n ++ List.replicate zeros '0' := by
  have hsplit := List.takeWhile_append_dropWhile (p := (· = '0')) (l := (Nat.toDigits 10 n).reverse)
  generalize hzeros : (Nat.toDigits 10 n).reverse.takeWhile (· = '0') = zeros at hsplit
  generalize hdigits : (Nat.toDigits 10 n).reverse.dropWhile (· = '0') = digits at hsplit
  have hall : zeros = List.replicate zeros.length '0' := by
    apply List.eq_replicate_of_mem
    intro c hc
    rw [← hzeros] at hc
    simpa using List.all_eq_true.1 List.all_takeWhile c hc
  have hn : Nat.toDigits 10 n = digits.reverse ++ List.replicate zeros.length '0' := by
    rw [← List.reverse_reverse (Nat.toDigits 10 n), ← hsplit, List.reverse_append, hall]
    simp
  cases hreverse : digits.reverse with
  -- zero is the one number that keeps a zero at its end
  | nil =>
    have hvalue := congrArg (Nat.ofDigitChars 10 · 0) hn
    have hzero : n = 0 := by
      simpa [hreverse, Nat.ofDigitChars_ten_toDigits, Nat.ofDigitChars_replicate_zero] using hvalue
    rw [hzero]
    exact ⟨0, by decide⟩
  | cons c cs =>
    refine ⟨zeros.length, ?_⟩
    rw [significantDigits, hdigits, hreverse, hn, hreverse]

theorem Json.exists_zeros (n : Nat) : ∃ zeros,
    n = Nat.ofDigitChars 10 (significantDigits n) 0 * 10 ^ zeros ∧
      Decimal.digitCount n = (significantDigits n).length + zeros := by
  obtain ⟨zeros, hn⟩ := exists_toDigits_eq n
  refine ⟨zeros, ?_, ?_⟩
  · have hvalue := congrArg (Nat.ofDigitChars 10 · 0) hn
    simp only [Nat.ofDigitChars_ten_toDigits, Nat.ofDigitChars_append,
      Nat.ofDigitChars_replicate_zero] at hvalue
    rw [Nat.mul_comm]
    exact hvalue
  · simpa [Decimal.digitCount] using congrArg List.length hn

/-- Digits around a point, and an exponent. -/
theorem Decimal.ofText?_of_parts {whole point fraction rest : List Char} {e : Int}
    (hwhole : AllDigits whole) (hstop : ∀ d, point.head? = some d → ¬ d.isDigit)
    (hpoint : splitFraction point = (fraction, rest)) (hexponent : exponent? rest = some e)
    (hne : whole ++ fraction ≠ []) :
    ofText? (whole ++ point) =
      some ⟨Nat.ofDigitChars 10 (whole ++ fraction) 0, e - fraction.length⟩ := by
  have hspan := span_append_of_stop hwhole hstop
  simp only [ofText?, hspan, hpoint, hne, if_false, hexponent, Option.map_some]

theorem Decimal.splitFraction_point {fraction rest : List Char} (hfraction : AllDigits fraction)
    (hrest : ∀ d, rest.head? = some d → ¬ d.isDigit) :
    splitFraction ('.' :: (fraction ++ rest)) = (fraction, rest) := by
  have hspan := span_append_of_stop hfraction hrest
  simp only [splitFraction, hspan]

theorem Decimal.exponent?_of_splitSign {cs digits : List Char} {negative : Bool}
    (hsplit : splitSign cs = (negative, digits)) (hne : digits ≠ []) (hdigits : AllDigits digits) :
    exponent? ('e' :: cs) =
      some (if negative then -(exponentOfDigits digits : Int) else exponentOfDigits digits) := by
  have hall : digits.all Char.isDigit := List.all_eq_true.2 hdigits
  simp [exponent?, hsplit, hne, hall]

theorem Decimal.exponent?_of_int {e : Int} (h : e.natAbs < exponentLimit) :
    exponent? ('e' :: (if e < 0 then '-' else '+') :: Nat.toDigits 10 e.natAbs) = some e := by
  have hsize : exponentOfDigits (Nat.toDigits 10 e.natAbs) = e.natAbs := by
    have hvalue := Nat.ofDigitChars_ten_toDigits (n := e.natAbs)
    rw [exponentOfDigits_eq (by omega), hvalue]
  have hread {sign : Char} {negative : Bool}
      (hsplit : splitSign (sign :: Nat.toDigits 10 e.natAbs) =
        (negative, Nat.toDigits 10 e.natAbs)) :=
    exponent?_of_splitSign hsplit Nat.toDigits_ne_nil (allDigits_toDigits _)
  by_cases he : e < 0
  · have habs : -(e.natAbs : Int) = e := by omega
    rw [if_pos he, hread rfl, hsize, if_pos rfl, habs]
  · have habs : (e.natAbs : Int) = e := by omega
    rw [if_neg he, hread rfl, hsize, if_neg Bool.false_ne_true, habs]

/-- The number that digits denote if the first one stands at ten to the `lead`. -/
def Decimal.ofLead (digits : List Char) (lead : Int) : Decimal :=
  ⟨Nat.ofDigitChars 10 digits 0, lead + 1 - digits.length⟩

@[simp] theorem Decimal.extend_zero (x : Decimal) : x.extend 0 = x := by
  simp [extend]

theorem Decimal.ofLead_extend (digits : List Char) (lead : Int) (zeros : Nat) :
    (ofLead digits lead).extend zeros =
      ⟨Nat.ofDigitChars 10 (digits ++ List.replicate zeros '0') 0,
        lead + 1 - (digits.length + zeros : Nat)⟩ := by
  have hexponent : lead + 1 - (digits.length : Int) - zeros =
      lead + 1 - (digits.length + zeros : Nat) := by omega
  rw [Nat.ofDigitChars_append, Nat.ofDigitChars_replicate_zero, Nat.mul_comm, extend, ofLead,
    hexponent]

theorem Json.ofText?_plain {digits : List Char} (hne : digits ≠ []) (hdigits : AllDigits digits)
    (lead : Int) :
    ∃ zeros : Nat, Decimal.ofText? (plain digits lead) =
      some ((Decimal.ofLead digits lead).extend zeros) := by
  have hpoint (cs : List Char) (d : Char) (hd : ('.' :: cs).head? = some d) : ¬ d.isDigit := by
    obtain rfl : '.' = d := Option.some.inj hd
    decide
  have hfraction {fraction : List Char} (h : AllDigits fraction) :
      Decimal.splitFraction ('.' :: fraction) = (fraction, []) := by
    have hstop : ∀ d, ([] : List Char).head? = some d → ¬ d.isDigit := by simp
    have hsplit := Decimal.splitFraction_point h hstop
    simpa using hsplit
  cases lead with
  -- the point stands among the digits, or after them and the zeros that fill the gap
  | ofNat lead =>
    by_cases hlong : lead + 1 < digits.length
    · have hdrop : digits.drop (lead + 1) ≠ [] := by simpa using hlong
      have hsplit := List.take_append_drop (lead + 1) digits
      have hparts : AllDigits (digits.take (lead + 1)) ∧ AllDigits (digits.drop (lead + 1)) := by
        rw [← allDigits_append_iff, hsplit]
        exact hdigits
      have hread := Decimal.ofText?_of_parts hparts.1 (hpoint _) (hfraction hparts.2) rfl
        (by simpa [hsplit] using hne)
      have hzeros : lead + 1 - digits.length = 0 := by omega
      refine ⟨0, ?_⟩
      simp only [plain, hzeros, hdrop, List.replicate_zero, List.append_nil, if_false]
      rw [hread, hsplit, Decimal.extend_zero, Decimal.ofLead]
      congr 2
      simp only [List.length_drop, Int.ofNat_eq_natCast]
      omega
    · have hdrop : digits.drop (lead + 1) = [] := by simpa using Nat.le_of_not_lt hlong
      have htake : digits.take (lead + 1) = digits := List.take_of_length_le (by omega)
      have hwhole : AllDigits (digits ++ List.replicate (lead + 1 - digits.length) '0') :=
        allDigits_append_iff.2 ⟨hdigits, allDigits_replicate _⟩
      have hread := Decimal.ofText?_of_parts hwhole (hpoint ['0'])
        (hfraction (allDigits_replicate 1)) rfl (by simp)
      refine ⟨lead + 1 - digits.length + 1, ?_⟩
      simp only [plain, hdrop, htake, if_true]
      rw [hread, Decimal.ofLead_extend, List.replicate_succ', ← List.append_assoc]
      congr 2
      simp only [List.length_singleton, Int.ofNat_eq_natCast]
      omega
  | negSucc zeros =>
    have hafter : AllDigits (List.replicate zeros '0' ++ digits) :=
      allDigits_append_iff.2 ⟨allDigits_replicate _, hdigits⟩
    have hread := Decimal.ofText?_of_parts (allDigits_replicate 1) (hpoint _) (hfraction hafter) rfl
      (by simp)
    have hvalue : Nat.ofDigitChars 10
        (List.replicate 1 '0' ++ (List.replicate zeros '0' ++ digits)) 0 =
          Nat.ofDigitChars 10 digits 0 := by
      simp only [Nat.ofDigitChars_append, Nat.ofDigitChars_replicate_zero, Nat.mul_zero]
    refine ⟨0, hread.trans ?_⟩
    rw [hvalue, Decimal.extend_zero, Decimal.ofLead]
    congr 2
    simp only [List.length_append, List.length_replicate]
    omega

theorem Json.ofText?_scientific {digits : List Char} (hne : digits ≠ [])
    (hdigits : AllDigits digits) {lead : Int} (hlead : lead.natAbs < Decimal.exponentLimit) :
    Decimal.ofText? (scientific digits lead) = some (Decimal.ofLead digits lead) := by
  have hexponent := Decimal.exponent?_of_int hlead
  -- the exponent stands right after the first digit or after a fraction, and is read alike
  generalize hrest : 'e' :: (if lead < 0 then '-' else '+') :: Nat.toDigits 10 lead.natAbs = rest
    at hexponent
  have hstop : ∀ d, rest.head? = some d → ¬ d.isDigit := by
    intro d hd
    obtain rfl : 'e' = d := by simpa [← hrest] using hd
    decide
  obtain ⟨first, others, rfl⟩ := List.exists_cons_of_ne_nil hne
  obtain ⟨hdigit, hothers⟩ := allDigits_cons_iff.1 hdigits
  have hfirst : AllDigits [first] := by simpa [AllDigits] using hdigit
  have hlength : lead - others.length = lead + 1 - (first :: others).length := by
    rw [List.length_cons]
    omega
  cases others with
  | nil =>
    have hpoint : Decimal.splitFraction rest = ([], rest) := by
      rw [← hrest]
      rfl
    have hread := Decimal.ofText?_of_parts hfirst hstop hpoint hexponent (by simp)
    rw [hlength] at hread
    simpa [scientific, hrest, Decimal.ofLead] using hread
  | cons second others =>
    have hpoint := Decimal.splitFraction_point hothers hstop
    have hread := Decimal.ofText?_of_parts hfirst (by simp) hpoint hexponent (by simp)
    rw [hlength] at hread
    simpa [scientific, hrest, Decimal.ofLead] using hread

/-- A decimal is read back up to zeros at its end. -/
theorem Json.ofText?_decimal {x : Decimal}
    (h : (Decimal.digitCount x.digits - 1 + x.exponent).natAbs < Decimal.exponentLimit) :
    ∃ y : Decimal, (∃ zeros : Nat, x = y.extend zeros) ∧
      ∃ zeros : Nat, Decimal.ofText? (decimal x) = some (y.extend zeros) := by
  obtain ⟨zeros, hvalue, hcount⟩ := exists_zeros x.digits
  have hne := significantDigits_ne_nil x.digits
  have hdigits := allDigits_significantDigits x.digits
  have hx : x = (Decimal.ofLead (significantDigits x.digits)
      (Decimal.digitCount x.digits - 1 + x.exponent)).extend zeros := by
    have hexponent : Decimal.digitCount x.digits - 1 + x.exponent + 1 -
        ((significantDigits x.digits).length : Int) - zeros = x.exponent := by omega
    rw [Decimal.ofLead, Decimal.extend, hexponent, ← hvalue]
  refine ⟨_, ⟨zeros, hx⟩, ?_⟩
  by_cases hplain : positional.least ≤ Decimal.digitCount x.digits - 1 + x.exponent ∧
      Decimal.digitCount x.digits - 1 + x.exponent ≤ positional.greatest
  · rw [decimal, if_pos hplain]
    exact ofText?_plain hne hdigits _
  · rw [decimal, if_neg hplain]
    exact ⟨0, by rw [ofText?_scientific hne hdigits h, Decimal.extend_zero]⟩

def isNumeralMark (c : Char) : Bool := c = '.' || c = 'e' || c = '+' || c = '-'

theorem not_isDigit_of_isNumeralMark {c : Char} (h : isNumeralMark c) : ¬ c.isDigit := by
  simp only [isNumeralMark, Bool.or_eq_true, decide_eq_true_eq] at h
  rcases h with ((rfl | rfl) | rfl) | rfl <;> decide

/-- One or more digits, and then a mark and more digits and marks. -/
structure IsNumeral (cs : List Char) (first : Char) (whole : List Char) (mark : Char)
    (rest : List Char) : Prop where
  eq : cs = first :: (whole ++ mark :: rest)
  whole : AllDigits (first :: whole)
  mark : isNumeralMark mark
  rest : ∀ c ∈ rest, c.isDigit ∨ isNumeralMark c

theorem IsNumeral.mem {cs : List Char} {first : Char} {whole : List Char} {mark : Char}
    {rest : List Char} (h : IsNumeral cs first whole mark rest) {c : Char} (hc : c ∈ cs) :
    c.isDigit ∨ isNumeralMark c := by
  rw [h.eq, ← List.cons_append] at hc
  rcases List.mem_append.1 hc with hc | hc
  · exact .inl (h.whole c hc)
  · rcases List.mem_cons.1 hc with rfl | hc
    · exact .inr h.mark
    · exact h.rest c hc

theorem Json.isNumeral_plain {digits : List Char} (hne : digits ≠ []) (hdigits : AllDigits digits)
    (lead : Int) :
    ∃ first whole mark rest, IsNumeral (plain digits lead) first whole mark rest := by
  cases lead with
  | ofNat lead =>
    obtain ⟨first, others, rfl⟩ := List.exists_cons_of_ne_nil hne
    have htake : AllDigits ((first :: others).take (lead + 1)) := by
      intro c hc
      exact hdigits c (List.mem_of_mem_take hc)
    refine ⟨first, _, '.', _, rfl, ?_, rfl, ?_⟩
    · exact allDigits_append_iff.2 ⟨htake, allDigits_replicate _⟩
    · intro c hc
      split at hc
      · exact .inl (allDigits_replicate 1 c hc)
      · exact .inl (hdigits c (List.mem_of_mem_drop hc))
  | negSucc zeros =>
    refine ⟨'0', [], '.', _, rfl, allDigits_replicate 1, rfl, ?_⟩
    intro c hc
    rcases List.mem_append.1 hc with hc | hc
    · exact .inl (allDigits_replicate _ c hc)
    · exact .inl (hdigits c hc)

theorem Json.isNumeral_scientific {digits : List Char} (hne : digits ≠ [])
    (hdigits : AllDigits digits) (lead : Int) :
    ∃ first whole mark rest, IsNumeral (scientific digits lead) first whole mark rest := by
  obtain ⟨first, others, rfl⟩ := List.exists_cons_of_ne_nil hne
  obtain ⟨hdigit, hothers⟩ := allDigits_cons_iff.1 hdigits
  have hfirst : AllDigits [first] := by simpa [AllDigits] using hdigit
  have hexponent : ∀ c ∈ (if lead < 0 then '-' else '+') :: Nat.toDigits 10 lead.natAbs,
      c.isDigit ∨ isNumeralMark c := by
    intro c hc
    rcases List.mem_cons.1 hc with rfl | hc
    · right
      split <;> rfl
    · exact .inl (allDigits_toDigits _ c hc)
  cases others with
  | nil => exact ⟨first, [], 'e', _, rfl, hfirst, rfl, hexponent⟩
  | cons second others =>
    refine ⟨first, [], '.', _, rfl, hfirst, rfl, ?_⟩
    intro c hc
    rcases List.mem_append.1 hc with hc | hc
    · exact .inl (hothers c hc)
    · rcases List.mem_cons.1 hc with rfl | hc
      · exact .inr rfl
      · exact hexponent c hc

theorem Json.isNumeral_decimal (x : Decimal) :
    ∃ first whole mark rest, IsNumeral (decimal x) first whole mark rest := by
  have hne := significantDigits_ne_nil x.digits
  have hdigits := allDigits_significantDigits x.digits
  unfold decimal
  dsimp only
  split
  · exact isNumeral_plain hne hdigits _
  · exact isNumeral_scientific hne hdigits _

theorem Json.mem_sign (negative : Bool) {c : Char}
    (hc : c ∈ if negative then ['-'] else []) :
    isNumeralMark c := by
  cases negative <;> simp_all [isNumeralMark]

theorem Json.mem_float {x : Binary64} (h : x.isFinite) {c : Char} (hc : c ∈ float x) :
    c.isDigit ∨ isNumeralMark c := by
  obtain ⟨first, whole, mark, rest, hnumeral⟩ :=
    isNumeral_decimal (Binary64.shortestDecimal x.magnitude)
  rw [float, if_pos h] at hc
  rcases List.mem_append.1 hc with hc | hc
  · exact .inr (mem_sign x.negative hc)
  · exact hnumeral.mem hc

theorem Json.mem_integer {n : Int} {c : Char} (hc : c ∈ integer n) :
    c.isDigit ∨ isNumeralMark c := by
  rcases List.mem_append.1 hc with hc | hc
  · exact .inr (mem_sign (n < 0) (by simpa using hc))
  · exact .inl (allDigits_toDigits _ c hc)

theorem toLower_of_isDigit {c : Char} (hc : c.isDigit) : c.toLower = c := by
  have htop := (Char.isDigit_iff_toNat.1 hc).2
  have hupper : ¬ (c.val ≥ 'A'.val ∧ c.val ≤ 'Z'.val) := by
    intro h
    have hlow : 65 ≤ c.toNat := UInt32.le_iff_toNat_le.1 h.1
    have hnine : '9'.toNat = 57 := rfl
    omega
  rw [Char.toLower, dif_neg hupper]

theorem Numeral.ofText?_of_isDigit {c : Char} (hc : c.isDigit) (cs : List Char) :
    ofText? (c :: cs) = (Decimal.ofText? (c :: cs)).map .decimal := by
  have hi : c ≠ 'i' := by
    rintro rfl
    simp [Char.isDigit] at hc
  have hn : c ≠ 'n' := by
    rintro rfl
    simp [Char.isDigit] at hc
  simp [ofText?, toLower_of_isDigit hc, hi, hn]

theorem Json.splitSign_float {x : Binary64} (h : x.isFinite) :
    splitSign (float x) = (x.negative, decimal (Binary64.shortestDecimal x.magnitude)) := by
  obtain ⟨first, whole, mark, rest, hnumeral⟩ :=
    isNumeral_decimal (Binary64.shortestDecimal x.magnitude)
  have hfirst : first.isDigit := hnumeral.whole first (by simp)
  rw [float, if_pos h, hnumeral.eq]
  cases x.negative with
  | true => rfl
  | false => exact splitSign_of_isDigit hfirst _

theorem Binary64.ofText?_float {x : Binary64} (h : x.isFinite) :
    ofText? (Json.float x) = some x := by
  have hmagnitude : x.magnitude < infinityMagnitude := of_decide_eq_true h
  have hround := magnitudeOfDecimal_shortestDecimal hmagnitude
  have hlead : (Decimal.digitCount (shortestDecimal x.magnitude).digits - 1 +
      (shortestDecimal x.magnitude).exponent).natAbs < Decimal.exponentLimit := by
    by_cases hzero : x.magnitude = 0
    · rw [hzero]
      decide
    · have hplaces := places_of_magnitudeOfDecimal (hround ▸ hzero) (hround.symm ▸ hmagnitude)
      simp only [Decimal.exponentLimit, Nat.pow_eq]
      omega
  -- what is read differs from the shortest decimal by zeros at the end, which do not matter
  obtain ⟨y, ⟨zeros, hy⟩, more, hread⟩ := Json.ofText?_decimal hlead
  have hvalue : magnitudeOfDecimal (y.extend more) = x.magnitude := by
    rw [magnitudeOfDecimal_extend, ← magnitudeOfDecimal_extend y zeros, ← hy, hround]
  obtain ⟨first, whole, mark, rest, hnumeral⟩ :=
    Json.isNumeral_decimal (shortestDecimal x.magnitude)
  have hfirst : first.isDigit := hnumeral.whole first (by simp)
  have hunsigned : (Numeral.ofText? (Json.decimal (shortestDecimal x.magnitude))).map
      (ofNumeral x.negative) = some x := by
    rw [hnumeral.eq, Numeral.ofText?_of_isDigit hfirst, ← hnumeral.eq, hread]
    simp [ofNumeral, hvalue]
  rw [ofText?, Json.splitSign_float h]
  exact hunsigned

/-- A floating-point number has a point or an exponent, so it is not taken for an integer. -/
theorem integer?_float {x : Binary64} (h : x.isFinite) : integer? (Json.float x) = none := by
  obtain ⟨first, whole, mark, rest, hnumeral⟩ :=
    Json.isNumeral_decimal (Binary64.shortestDecimal x.magnitude)
  have hnone : natural? (Json.decimal (Binary64.shortestDecimal x.magnitude)) = none := by
    rw [natural?, if_neg]
    intro hdigits
    have hmark := List.all_eq_true.1 hdigits.2 mark (by simp [hnumeral.eq])
    exact not_isDigit_of_isNumeralMark hnumeral.mark hmark
  simp [integer?, Json.splitSign_float h, hnone]

namespace Value

/-- The values that a raw literal can stand for. -/
def IsRaw : Value → Prop
  | null | boolean _ | integer _ => True
  | float x => x.isFinite
  | _ => False

theorem int64?_toInt (n : Int64) : int64? n.toInt = some n := by
  rw [int64?, if_pos ⟨n.minValue_le_toInt, n.toInt_le⟩, Int64.ofInt_toInt]

/-- No numeral is one of the three words. -/
theorem ofRaw?_ofList {cs : List Char}
    (h : (integer? cs).isSome ∨ (Binary64.ofText? cs).isSome) :
    ofRaw? (.ofList cs) =
      (((integer? cs).bind int64?).map integer).or ((Binary64.ofText? cs).map float) := by
  have hword (word : String) (hinteger : integer? word.toList = none)
      (hfloat : Binary64.ofText? word.toList = none) : String.ofList cs ≠ word := by
    rintro rfl
    rw [String.toList_ofList] at hinteger hfloat
    simp [hinteger, hfloat] at h
  have htrue := hword "true" (by decide) (by decide)
  have hfalse := hword "false" (by decide) (by decide)
  have hnull := hword "null" (by decide) (by decide)
  rw [ofRaw?, if_neg htrue, if_neg hfalse, if_neg hnull, String.toList_ofList]
  cases (integer? cs).bind int64? <;> rfl

/-- The JSON text of a scalar that is no string is a raw literal for it. -/
theorem ofRaw?_scalar {v : Value} (h : v.IsRaw) : ofRaw? (.ofList v.scalar) = some v := by
  cases v with
  | null => simp [scalar, ofRaw?]
  | boolean b => cases b <;> simp [scalar, ofRaw?]
  | float x =>
    have hread : Binary64.ofText? (float x).scalar = some x := Binary64.ofText?_float h
    have hinteger : integer? (float x).scalar = none := integer?_float h
    rw [ofRaw?_ofList (.inr (by rw [hread]; rfl)), hinteger, hread]
    rfl
  | integer n =>
    have hread : integer? (integer n).scalar = some n.toInt := integer?_integer n.toInt
    rw [ofRaw?_ofList (.inl (by rw [hread]; rfl)), hread, Option.bind_some, int64?_toInt]
    rfl
  | string s | array elements | object fields => exact h.elim

theorem not_isDelimiter_of_numeral {c : Char} (h : c.isDigit ∨ isNumeralMark c) :
    ¬ isDelimiter c := by
  intro hc
  simp only [isDelimiter, Bool.or_eq_true, decide_eq_true_eq] at hc
  rcases hc with ((((((rfl | rfl) | rfl) | rfl) | rfl) | rfl) | rfl) | rfl <;> revert h <;> decide

theorem isUndelimited_scalar {v : Value} (h : v.IsRaw) : IsUndelimited v.scalar := by
  cases v with
  | null => decide
  | boolean b => cases b <;> decide
  | float x =>
    intro c hc
    exact not_isDelimiter_of_numeral (Json.mem_float h hc)
  | integer n =>
    intro c hc
    exact not_isDelimiter_of_numeral (Json.mem_integer hc)
  | string s | array elements | object fields => exact h.elim

end Value

end JsonShorthand
