import JsonShorthand.Proofs.JsonReader
import JsonShorthand.Proofs.Numerals

namespace JsonShorthand.Json

theorem hexDigit?_digitChar {n : Nat} (h : n < 16) : hexDigit? (Nat.digitChar n) = some n := by
  revert n
  decide

theorem codeUnit?_control {n : Nat} (h : n < 0x20) (rest : List Char) :
    codeUnit? ('0' :: '0' :: Nat.digitChar (n / 16) :: Nat.digitChar (n % 16) :: rest) =
      some (n, rest) := by
  have hhigh : hexDigit? (Nat.digitChar (n / 16)) = some (n / 16) :=
    hexDigit?_digitChar (by omega)
  have hlow : hexDigit? (Nat.digitChar (n % 16)) = some (n % 16) :=
    hexDigit?_digitChar (by omega)
  have hzero : hexDigit? '0' = some 0 := by decide
  have hsum : n / 16 * 16 + n % 16 = n := by omega
  simp [codeUnit?, hhigh, hlow, hzero, hsum]

/-- Any character is read back from what stands for it. -/
theorem character?_escape (c : Char) (rest : List Char) :
    character? (escape c ++ rest) = some (c, rest) := by
  unfold escape
  split
  case h_8 hquote hbackslash _ _ _ _ _ =>
    split
    · next hcontrol =>
      have hunit : c.toNat < 0xD800 := by omega
      have hread := codeUnit?_control hcontrol rest
      simp [character?, codePoint?, hread, hunit, Char.ofNat_toNat]
    · next hcontrol =>
      have hplain : ¬ (c = '\\' ∨ c = '"' ∨ c.toNat < 0x20) := by
        rintro (hc | hc | hc)
        exacts [hbackslash hc, hquote hc, hcontrol hc]
      rw [List.cons_append, List.nil_append, character?, if_neg hplain]
      all_goals simp_all
  all_goals rfl

theorem head?_escape_ne (c : Char) (rest : List Char) :
    (escape c ++ rest).head? ≠ some '"' := by
  unfold escape
  split
  case h_8 hquote _ _ _ _ _ _ =>
    split
    · simp
    · simpa using hquote
  all_goals simp

theorem unquote?_escape (text rest : List Char) :
    unquote? (text.flatMap escape ++ '"' :: rest) = some (text, rest) := by
  induction text with
  | nil =>
    rw [unquote?]
    simp
  | cons c text ih =>
    have hread := character?_escape c (text.flatMap escape ++ '"' :: rest)
    rw [List.flatMap_cons, List.append_assoc, unquote?, if_neg (head?_escape_ne c _)]
    split
    · simp_all
    · next heq =>
      rw [hread] at heq
      obtain ⟨rfl, rfl⟩ := Prod.mk.inj (Option.some.inj heq)
      rw [ih]
      rfl

theorem head?_toDigits_ne {n : Nat} (h : n ≠ 0) : (Nat.toDigits 10 n).head? ≠ some '0' := by
  induction n using Nat.strongRecOn with
  | ind n ih =>
    by_cases hlt : n < 10
    · rw [Nat.toDigits_of_lt_base hlt]
      simpa [Nat.digitChar_eq_zero] using h
    · rw [Nat.toDigits_of_base_le (by decide) (by omega),
        List.head?_append_of_ne_nil _ Nat.toDigits_ne_nil]
      exact ih (n / 10) (by omega) (by omega)

theorem isWhole_toDigits (n : Nat) : isWhole (Nat.toDigits 10 n) := by
  by_cases h : n = 0
  · subst h
    decide
  · simp [isWhole, Nat.toDigits_ne_nil, head?_toDigits_ne h]

theorem head?_significantDigits_ne {n : Nat} (h : n ≠ 0) :
    (significantDigits n).head? ≠ some '0' := by
  obtain ⟨zeros, hdigits⟩ := exists_toDigits_eq n
  have hhead := head?_toDigits_ne h
  rwa [hdigits, List.head?_append_of_ne_nil _ (significantDigits_ne_nil n)] at hhead

theorem isUnsigned_of_parts {whole point fraction rest : List Char} (hwhole : AllDigits whole)
    (hlead : isWhole whole) (hstop : ∀ d, point.head? = some d → ¬ d.isDigit)
    (hpoint : Decimal.splitFraction point = (fraction, rest))
    (hfraction : point.head? = some '.' → fraction ≠ [])
    (hexponent : (Decimal.exponent? rest).isSome) : isUnsigned (whole ++ point) := by
  have hspan := span_append_of_stop hwhole hstop
  by_cases hhead : point.head? = some '.'
  · simp [isUnsigned, hspan, hpoint, hlead, hexponent, hfraction hhead]
  · simp [isUnsigned, hspan, hpoint, hlead, hexponent, hhead]

theorem isUnsigned_of_fraction {whole fraction : List Char} (hwhole : AllDigits whole)
    (hlead : isWhole whole) (hfraction : AllDigits fraction) (hne : fraction ≠ []) :
    isUnsigned (whole ++ '.' :: fraction) := by
  have hstop : ∀ d, ('.' :: fraction).head? = some d → ¬ d.isDigit := by
    intro d hd
    obtain rfl : '.' = d := Option.some.inj hd
    decide
  have hsplit : Decimal.splitFraction ('.' :: (fraction ++ [])) = (fraction, []) :=
    Decimal.splitFraction_point hfraction (by simp)
  rw [List.append_nil] at hsplit
  exact isUnsigned_of_parts hwhole hlead hstop hsplit (fun _ => hne) rfl

/-- Plain notation, if a zero at the front of the digits is the only digit before the point. -/
theorem isUnsigned_plain {digits : List Char} {lead : Int} (hne : digits ≠ [])
    (hdigits : AllDigits digits) (hlead : digits.head? ≠ some '0' ∨ digits = ['0'] ∧ lead = 0) :
    isUnsigned (plain digits lead) := by
  -- the point stands among the digits or behind them, or zeros stand between it and them
  cases lead with
  | ofNat lead =>
    have hfraction : AllDigits (if digits.drop (lead + 1) = [] then ['0']
        else digits.drop (lead + 1)) := by
      split
      · exact allDigits_replicate 1
      · exact fun c hc => hdigits c (List.mem_of_mem_drop hc)
    have hwhole : AllDigits (digits.take (lead + 1) ++
        List.replicate (lead + 1 - digits.length) '0') :=
      allDigits_append_iff.2 ⟨fun c hc => hdigits c (List.mem_of_mem_take hc),
        allDigits_replicate _⟩
    apply isUnsigned_of_fraction hwhole ?_ hfraction (by split <;> simp_all)
    obtain ⟨first, others, rfl⟩ := List.exists_cons_of_ne_nil hne
    rcases hlead with hhead | ⟨hzero, hlead⟩
    · simp_all [isWhole]
    · obtain rfl : lead = 0 := by simpa using hlead
      simp [hzero, isWhole]
  | negSucc zeros =>
    have hfraction : AllDigits (List.replicate zeros '0' ++ digits) :=
      allDigits_append_iff.2 ⟨allDigits_replicate _, hdigits⟩
    exact isUnsigned_of_fraction (allDigits_replicate 1) rfl hfraction (by simp [hne])

theorem isUnsigned_scientific {digits : List Char} (hne : digits ≠ []) (hdigits : AllDigits digits)
    (lead : Int) : isUnsigned (scientific digits lead) := by
  have hsign : splitSign ((if lead < 0 then '-' else '+') :: Nat.toDigits 10 lead.natAbs) =
      (decide (lead < 0), Nat.toDigits 10 lead.natAbs) := by
    by_cases h : lead < 0 <;> simp [h, splitSign]
  have hexponent := Decimal.exponent?_of_splitSign hsign Nat.toDigits_ne_nil (allDigits_toDigits _)
  generalize hrest : 'e' :: (if lead < 0 then '-' else '+') :: Nat.toDigits 10 lead.natAbs = rest
    at hexponent
  have hstop : ∀ d, rest.head? = some d → ¬ d.isDigit := by
    intro d hd
    obtain rfl : 'e' = d := by simpa [← hrest] using hd
    decide
  obtain ⟨first, others, rfl⟩ := List.exists_cons_of_ne_nil hne
  obtain ⟨hdigit, hothers⟩ := allDigits_cons_iff.1 hdigits
  have hfirst : AllDigits [first] := by simpa [AllDigits] using hdigit
  have hlead : isWhole [first] := by
    by_cases h : first = '0' <;> simp [isWhole, h]
  cases others with
  | nil =>
    have hpoint : Decimal.splitFraction rest = ([], rest) := by
      rw [← hrest]
      rfl
    have hnumber := isUnsigned_of_parts hfirst hlead hstop hpoint (by simp [← hrest])
      (by rw [hexponent]; rfl)
    simpa [scientific, hrest] using hnumber
  | cons second others =>
    have hpoint := Decimal.splitFraction_point hothers hstop
    have hnumber := isUnsigned_of_parts hfirst hlead (by simp) hpoint (by simp)
      (by rw [hexponent]; rfl)
    simpa [scientific, hrest] using hnumber

/-- The shortest decimal of zero has one digit, and that of no other number begins with a zero. -/
theorem isUnsigned_decimal {x : Decimal} (h : x.digits ≠ 0 ∨ x = ⟨0, 0⟩) :
    isUnsigned (decimal x) := by
  have hne := significantDigits_ne_nil x.digits
  have hdigits := allDigits_significantDigits x.digits
  unfold decimal
  dsimp only
  split
  · apply isUnsigned_plain hne hdigits
    rcases h with hdigits | rfl
    · exact .inl (head?_significantDigits_ne hdigits)
    · right
      decide
  · exact isUnsigned_scientific hne hdigits _

theorem any_isFloatMark_decimal (x : Decimal) : (decimal x).any isFloatMark := by
  unfold decimal
  dsimp only
  split
  · unfold plain
    split <;> simp [isFloatMark]
  · simp [scientific, isFloatMark]

theorem isNumber_of_isUnsigned {cs : List Char} (h : isUnsigned cs) (negative : Bool) :
    isNumber ((if negative then ['-'] else []) ++ cs) := by
  cases negative with
  | true => exact h
  | false =>
    rw [if_neg Bool.false_ne_true, List.nil_append, isNumber]
    · exact h
    · rintro cs rfl
      simp [isUnsigned, isWhole] at h

theorem number?_float {x : Binary64} (h : x.isFinite) : number? (float x) = some (.float x) := by
  have hmagnitude : x.magnitude < Binary64.infinityMagnitude := of_decide_eq_true h
  have hdigits : (Binary64.shortestDecimal x.magnitude).digits ≠ 0 ∨
      Binary64.shortestDecimal x.magnitude = ⟨0, 0⟩ := by
    by_cases hzero : x.magnitude = 0
    · right
      rw [hzero]
      rfl
    · left
      intro hdigits
      have hround := Binary64.magnitudeOfDecimal_shortestDecimal hmagnitude
      simp [Binary64.magnitudeOfDecimal, hdigits, Ne.symm hzero] at hround
  have hnumber : isNumber (float x) := by
    rw [float, if_pos h]
    exact isNumber_of_isUnsigned (isUnsigned_decimal hdigits) x.negative
  have hmark : (float x).any isFloatMark := by
    rw [float, if_pos h, List.any_append, any_isFloatMark_decimal, Bool.or_true]
  simp [number?, hnumber, hmark, Binary64.ofText?_float h, h]

theorem number?_integer (n : Int64) : number? (integer n.toInt) = some (.integer n) := by
  have hdigits := allDigits_toDigits n.toInt.natAbs
  have hunsigned : isUnsigned (Nat.toDigits 10 n.toInt.natAbs) := by
    have hparts : isUnsigned (Nat.toDigits 10 n.toInt.natAbs ++ []) :=
      isUnsigned_of_parts hdigits (isWhole_toDigits _) (by simp) rfl (by simp) rfl
    rwa [List.append_nil] at hparts
  have hnumber : isNumber (integer n.toInt) := by
    simpa [integer] using isNumber_of_isUnsigned hunsigned (n.toInt < 0)
  have hmark : (integer n.toInt).any isFloatMark = false := by
    apply List.any_eq_false.2
    intro c hc hmark
    simp only [isFloatMark, Bool.or_eq_true, decide_eq_true_eq] at hmark
    rcases List.mem_append.1 hc with hc | hc
    · obtain rfl : c = '-' := by
        split at hc <;> simp_all
      simp at hmark
    · have hdigit := hdigits c hc
      rcases hmark with (rfl | rfl) | rfl <;> simp [Char.isDigit] at hdigit
  simp [number?, hnumber, hmark, integer?_integer, Value.int64?_toInt]

theorem scalar?_of_number? {cs : List Char} {v : Value} (h : number? cs = some v) :
    scalar? cs = some v := by
  have hword (word : String) (hword : isNumber word.toList = false) : cs ≠ word.toList := by
    rintro rfl
    simp [number?, hword] at h
  rw [scalar?, if_neg (hword "null" (by decide)), if_neg (hword "true" (by decide)),
    if_neg (hword "false" (by decide)), h]

/-- Scalars other than strings are read back as they are. -/
theorem scalar?_scalar {v : Value} (h : v.IsRaw) : scalar? v.scalar = some v := by
  cases v with
  | null => rfl
  | boolean b => cases b <;> rfl
  | float x => exact scalar?_of_number? (number?_float h)
  | integer n => exact scalar?_of_number? (number?_integer n)
  | string s | array elements | object fields => exact h.elim

theorem isScalarChar_of_mem_scalar {v : Value} (h : v.IsRaw) {c : Char} (hc : c ∈ v.scalar) :
    isScalarChar c := by
  have hnumeral (hc : c.isDigit ∨ isNumeralMark c) : isScalarChar c := by
    rcases hc with hc | hc
    · simp [isScalarChar, Char.isAlphanum, hc]
    · simp only [isNumeralMark, Bool.or_eq_true, decide_eq_true_eq] at hc
      rcases hc with ((rfl | rfl) | rfl) | rfl <;> rfl
  cases v with
  | null =>
    have hall : Value.null.scalar.all isScalarChar := by decide
    exact List.all_eq_true.1 hall c hc
  | boolean b =>
    have hall : (Value.boolean b).scalar.all isScalarChar := by cases b <;> decide
    exact List.all_eq_true.1 hall c hc
  | float x => exact hnumeral (mem_float h hc)
  | integer n => exact hnumeral (mem_integer hc)
  | string s | array elements | object fields => exact h.elim

/-- The characters `text` are read as `tokens` if what follows does not go on with a number or a
word. -/
def Lexes (text : List Char) (tokens : List Token) : Prop :=
  ∀ rest : List Char, (∀ d, rest.head? = some d → ¬ isScalarChar d) →
    tokens? (text ++ rest) = (tokens? rest).map (tokens ++ ·)

structure IsMark (c : Char) (token : Token) : Prop where
  not_isBlank : ¬ isBlank c
  not_isScalarChar : ¬ isScalarChar c
  scan?_eq : ∀ rest, scan? c rest = some (token, rest)

theorem isMark_openBrace : IsMark '{' .openBrace := ⟨by decide, by decide, fun _ => rfl⟩

theorem isMark_closeBrace : IsMark '}' .closeBrace := ⟨by decide, by decide, fun _ => rfl⟩

theorem isMark_openBracket : IsMark '[' .openBracket := ⟨by decide, by decide, fun _ => rfl⟩

theorem isMark_closeBracket : IsMark ']' .closeBracket := ⟨by decide, by decide, fun _ => rfl⟩

theorem isMark_colon : IsMark ':' .colon := ⟨by decide, by decide, fun _ => rfl⟩

theorem isMark_comma : IsMark ',' .comma := ⟨by decide, by decide, fun _ => rfl⟩

namespace Lexes

theorem nil : Lexes [] [] := by
  intro rest _
  cases hrest : tokens? rest <;> simp [hrest]

theorem string (text : String) : Lexes (Json.string text) [.string text] := by
  intro rest _
  have hscan : scan? '"' (text.toList.flatMap escape ++ '"' :: rest) =
      some (.string text, rest) := by
    simp [scan?, unquote?_escape]
  have htokens := tokens?_of_scan? (by decide) hscan
  simpa [Json.string] using htokens

theorem scalar {v : Value} (h : v.IsRaw) : Lexes v.scalar [.scalar v] := by
  intro rest hrest
  have hchars : ∀ c ∈ v.scalar, isScalarChar c := fun c hc => isScalarChar_of_mem_scalar h hc
  have hread := scalar?_scalar h
  cases hscalar : v.scalar with
  | nil => simp [hscalar, scalar?, number?, isNumber, isUnsigned, isWhole] at hread
  | cons c cs =>
    rw [hscalar] at hchars hread
    obtain ⟨hc, hcs⟩ := List.forall_mem_cons.1 hchars
    have hspan := span_append_of_stop hcs hrest
    have hscan : scan? c (cs ++ rest) = some (.scalar v, rest) := by
      unfold scan?
      split
      case h_8 => simp [hspan, hread]
      all_goals simp [isScalarChar] at hc
    have hblank : ¬ isBlank c := by
      intro hblank
      simp only [isBlank, Bool.or_eq_true, decide_eq_true_eq] at hblank
      rcases hblank with ((rfl | rfl) | rfl) | rfl <;> simp [isScalarChar] at hc
    exact tokens?_of_scan? hblank hscan

theorem append {text more : List Char} {tokens others : List Token} (htext : Lexes text tokens)
    (hmore : Lexes more others) (hhead : ∀ d, more.head? = some d → ¬ isScalarChar d) :
    Lexes (text ++ more) (tokens ++ others) :=
  scan_append_of_stop htext hmore hhead

theorem mark_cons {c : Char} {token : Token} {text : List Char} {tokens : List Token}
    (hmark : IsMark c token) (h : Lexes text tokens) : Lexes (c :: text) (token :: tokens) := by
  intro rest hrest
  rw [List.cons_append, tokens?_of_scan? hmark.not_isBlank (hmark.scan?_eq _), h rest hrest,
    Option.map_map]
  rfl

theorem mark {c : Char} {token : Token} (hmark : IsMark c token) : Lexes [c] [token] :=
  mark_cons hmark nil

theorem tokens?_eq {text : List Char} {tokens : List Token} (h : Lexes text tokens) :
    tokens? text = some tokens := by
  have hempty := h [] (by simp)
  simpa using hempty

end Lexes

end JsonShorthand.Json
