import Rsock.Json11
import Rsock.Proofs.RConfigProofs

/-!
# Proofs: json11

Each scanner reads back what `dump` writes: a string (`parseString_dumpChars`), the text of a number
(`NumberText.parseNumber_text`). A number keeps its value, but not its type: an `int` of ten digits comes
back as a `double`, a `double` that is written with at most nine digits as an `int`
(`NumberText.eq_value`).
-/

namespace Rsock

namespace Json11

open CMem

variable {D : Type} [Doubles D] {strategy : JsonParse}

/-! ## Tokens -/

/-- A character that `consume_garbage` stops at, whether or not comments are allowed. -/
def IsToken (ch : Char) : Prop := ch ∉ [' ', '\r', '\n', '\t', '/']

instance (ch : Char) : Decidable (IsToken ch) := inferInstanceAs (Decidable (_ ∉ _))

theorem consumeWhitespace_token {ch : Char} (h : IsToken ch) (rest : Text) :
    consumeWhitespace (ch :: rest) = ch :: rest := by
  refine List.dropWhile_cons_of_neg ?_
  simp only [IsToken, List.mem_cons, not_or] at h
  simp [h]

theorem consumeGarbage_token {ch : Char} (h : IsToken ch) (rest : Text) :
    consumeGarbage strategy (ch :: rest) = .ok (ch :: rest) := by
  cases strategy with
  | standard => exact congrArg Except.ok (consumeWhitespace_token h rest)
  | comments =>
    have hslash : ch ≠ '/' := by
      rintro rfl
      exact absurd h (by decide)
    have hcomment : consumeComment (ch :: rest) = .ok (false, ch :: rest) := by
      unfold consumeComment
      split
      · rename_i heq
        exact absurd (List.cons.inj heq).1 hslash
      · rfl
    show consumeComments ((consumeWhitespace (ch :: rest)).length + 1) (consumeWhitespace (ch :: rest)) = _
    rw [consumeWhitespace_token h, consumeComments, hcomment, ok_bind]
    exact congrArg Except.ok (consumeWhitespace_token h rest)

theorem getNextToken_token {ch : Char} (h : IsToken ch) (rest : Text) :
    getNextToken strategy (ch :: rest) = .ok (ch, rest) := by
  rw [getNextToken, consumeGarbage_token h]
  rfl

theorem getNextToken_blank (str : Text) :
    getNextToken strategy (' ' :: str) = getNextToken strategy str := rfl

/-! ## Strings -/

/-- A code point that a trail surrogate does not go with. -/
def NoLead (pt : Int) : Prop := ¬ (0xD800 ≤ pt ∧ pt ≤ 0xDBFF)

instance (pt : Int) : Decidable (NoLead pt) := inferInstanceAs (Decidable (¬ _))

theorem addCodepoint_of_noLead {last : Int} (h : NoLead last) (codepoint : Int) :
    addCodepoint last codepoint = (encodeUtf8 last, codepoint) := by
  rw [addCodepoint, if_neg]
  rintro ⟨hlast, -⟩
  exact h hlast

theorem char_eq {ch : Char} {n : Nat} (h : ch.toNat = n) : ch = Char.ofNat n := by
  rw [← h, Char.ofNat_toNat]

/-- A control character is one of thirty-two. -/
theorem hex4_control : ∀ n : Fin 32, ∃ c₁ c₂ c₃ c₄, hex4 n = [c₁, c₂, c₃, c₄] ∧
    codepointOf c₁ c₂ c₃ c₄ = some (n : Nat) ∧ encodeUtf8 (n : Nat) = [Char.ofNat n] := by
  intro n
  refine ⟨(hex4 n).getD 0 ' ', (hex4 n).getD 1 ' ', (hex4 n).getD 2 ' ', (hex4 n).getD 3 ' ', ?_⟩
  revert n
  decide

section ParseChars

variable (last : Int) (out : Text)

theorem parseChars_quote (str : Text) :
    parseChars last out ('\x22' :: str) = .ok (out ++ encodeUtf8 last, str) := by
  rw [parseChars.eq_def]
  rfl

theorem parseChars_plain {ch : Char} (hquote : ch ≠ '\x22') (hcontrol : ¬ ch.toNat ≤ 0x1f)
    (hslash : ch ≠ '\x5c') (str : Text) :
    parseChars last out (ch :: str) = parseChars (-1) (out ++ encodeUtf8 last ++ [ch]) str := by
  rw [parseChars.eq_def]
  simp only [hquote, hcontrol, hslash, if_false, ne_eq, not_false_eq_true, if_true]

theorem parseChars_escape {e ch : Char} (hu : e ≠ 'u') (he : unescape e = some ch) (str : Text) :
    parseChars last out ('\x5c' :: e :: str) =
      parseChars (-1) (out ++ encodeUtf8 last ++ [ch]) str := by
  rw [parseChars.eq_def]
  simp [hu, he]

theorem parseChars_codepoint {c₁ c₂ c₃ c₄ : Char} {pt : Int} (h : codepointOf c₁ c₂ c₃ c₄ = some pt)
    (hlast : NoLead last) (str : Text) :
    parseChars last out ('\x5c' :: 'u' :: c₁ :: c₂ :: c₃ :: c₄ :: str) =
      parseChars pt (out ++ encodeUtf8 last) str := by
  rw [parseChars.eq_def]
  simp [h, addCodepoint_of_noLead hlast]

end ParseChars

/-- Up to the quote, `str` is read as `s`, after what has been read before. -/
def ReadAs (s str rest : Text) : Prop := ∀ last : Int, NoLead last → ∀ out : Text,
  parseChars last out (str ++ '\x22' :: rest) = .ok (out ++ encodeUtf8 last ++ s, rest)

/-- A character that is read on its own, whether or not it is escaped. -/
theorem ReadAs.char {ch : Char} {s str str' rest : Text} (h : ReadAs s str rest)
    (hstep : ∀ last out, parseChars last out (str' ++ '\x22' :: rest) =
      parseChars (-1) (out ++ encodeUtf8 last ++ [ch]) (str ++ '\x22' :: rest)) :
    ReadAs (ch :: s) str' rest := by
  intro last _ out
  have hnone : encodeUtf8 (-1) = [] := rfl
  rw [hstep, h (-1) (by decide), hnone]
  simp

theorem ReadAs.codepoint {c₁ c₂ c₃ c₄ : Char} {pt : Int} {s chars str rest : Text} (h : ReadAs s str rest)
    (hpt : codepointOf c₁ c₂ c₃ c₄ = some pt) (hlead : NoLead pt) (hchars : encodeUtf8 pt = chars) :
    ReadAs (chars ++ s) ('\x5c' :: 'u' :: c₁ :: c₂ :: c₃ :: c₄ :: str) rest := by
  intro last hlast out
  simp only [List.cons_append]
  rw [parseChars_codepoint last out hpt hlast, h pt hlead, hchars]
  simp

theorem readAs_dumpChars (s rest : Text) : ReadAs s (dumpChars s) rest := by
  fun_induction dumpChars s with
  | case1 =>
    intro last _ out
    rw [List.nil_append, parseChars_quote, List.append_nil]
  | case2 s ih => exact ih.char fun last out => parseChars_escape last out (by decide) (by decide) _
  | case3 s _ ih => exact ih.char fun last out => parseChars_escape last out (by decide) (by decide) _
  | case4 s _ _ ih => exact ih.char fun last out => parseChars_escape last out (by decide) (by decide) _
  | case5 s _ _ _ ih => exact ih.char fun last out => parseChars_escape last out (by decide) (by decide) _
  | case6 s _ _ _ _ ih => exact ih.char fun last out => parseChars_escape last out (by decide) (by decide) _
  | case7 s _ _ _ _ _ ih => exact ih.char fun last out => parseChars_escape last out (by decide) (by decide) _
  | case8 s _ _ _ _ _ _ ih => exact ih.char fun last out => parseChars_escape last out (by decide) (by decide) _
  | case9 ch s _ _ _ _ _ _ _ hcontrol ih =>
    obtain ⟨c₁, c₂, c₃, c₄, hhex, hpt, hutf⟩ := hex4_control ⟨ch.toNat, by omega⟩
    have hlead : NoLead (ch.toNat : Nat) := by
      unfold NoLead
      omega
    rw [hhex]
    rw [Char.ofNat_toNat] at hutf
    exact ih.codepoint hpt hlead hutf
  | case10 ch _ _ _ _ _ _ _ _ ch₁ ch₂ s hls ih =>
    have hchars : encodeUtf8 0x2028 = [ch, ch₁, ch₂] := by
      rw [char_eq hls.1, char_eq hls.2.1, char_eq hls.2.2]
      decide
    exact ih.codepoint (by decide) (by decide) hchars
  | case11 ch _ _ _ _ _ _ _ _ ch₁ ch₂ s _ hps ih =>
    have hchars : encodeUtf8 0x2029 = [ch, ch₁, ch₂] := by
      rw [char_eq hps.1, char_eq hps.2.1, char_eq hps.2.2]
      decide
    exact ih.codepoint (by decide) (by decide) hchars
  | case12 ch hslash hquote _ _ _ _ _ hcontrol ch₁ ch₂ s _ _ ih =>
    exact ih.char fun last out => parseChars_plain last out hquote hcontrol hslash _
  | case13 ch hslash hquote _ _ _ _ _ hcontrol s _ ih =>
    exact ih.char fun last out => parseChars_plain last out hquote hcontrol hslash _

/-- What `dump` writes of a string is read as the string. -/
theorem parseString_dumpChars (s rest : Text) :
    parseString (dumpChars s ++ '\x22' :: rest) = .ok (s, rest) :=
  readAs_dumpChars s rest (-1) (by decide) []

/-! ## Numbers -/

/-- The parts of a number as JSON has it: digits, which a 0 does not lead, with a minus or without, and
    maybe decimals and an exponent. -/
structure NumberText where
  sign : Text
  digits : Text
  decimals : Text
  exponent : Text
  sign_ok : sign = [] ∨ sign = ['-']
  digits_ok : digits = ['0'] ∨ IsDigits digits ∧ cur digits ≠ '0'
  decimals_ok : decimals = [] ∨ ∃ ds, IsDigits ds ∧ decimals = '.' :: ds
  exponent_ok : exponent = [] ∨ ∃ e s ds, (e = 'e' ∨ e = 'E') ∧ (s = [] ∨ s = ['+'] ∨ s = ['-']) ∧
    IsDigits ds ∧ exponent = e :: (s ++ ds)

/-- What may follow a value: the end of the text, or what goes on with an array or an object. -/
def Follows (rest : Text) : Prop := cur rest ∈ ['\x00', ',', ']', '\x7d']

theorem Follows.isDigit {rest : Text} (h : Follows rest) : (cur rest).isDigit = false := by
  simp only [Follows, List.mem_cons, List.not_mem_nil, or_false] at h
  rcases h with h | h | h | h <;> rw [h] <;> rfl

theorem Follows.ne {rest : Text} {ch : Char} (h : Follows rest) (hch : ch ∈ ['.', 'e', 'E']) : cur rest ≠ ch := by
  rintro rfl
  simp only [Follows, List.mem_cons, List.not_mem_nil, or_false] at h
  rcases h with h | h | h | h <;> rw [h] at hch <;> exact absurd hch (by decide)

theorem noDigit_of_cur {str : Text} (h : (cur str).isDigit = false) : NoDigit str := by
  intro c hc
  cases str with
  | nil => cases hc
  | cons ch str =>
    cases hc
    exact h

theorem cur_append {ds : Text} (h : ds ≠ []) (rest : Text) : cur (ds ++ rest) = cur ds := by
  cases ds with
  | nil => exact absurd rfl h
  | cons c ds => rfl

theorem cur_of_isDigits {ds : Text} (h : IsDigits ds) : (cur ds).isDigit = true := by
  cases ds with
  | nil => exact absurd rfl h.1
  | cons c ds => exact h.2 c List.mem_cons_self

/-- A digit is no sign. -/
theorem signPart_digits {isSign : Char → Bool} {ds : Text} (hds : IsDigits ds) (rest : Text)
    (hsign : ∀ ch, isSign ch = true → ch.isDigit = false) : signPart isSign (ds ++ rest) = [] := by
  have hcur := cur_of_isDigits hds
  refine if_neg fun h => ?_
  rw [cur_append hds.1] at h
  rw [hsign _ h] at hcur
  cases hcur

namespace NumberText

variable (n : NumberText)

def text : Text := n.sign ++ n.digits ++ n.decimals ++ n.exponent

/-- Nothing but digits, and maybe a minus. -/
def Whole : Prop := n.decimals = [] ∧ n.exponent = []

instance : Decidable n.Whole := inferInstanceAs (Decidable (_ ∧ _))

/-- What the parser makes of the text. -/
def value : Value D :=
  if n.Whole ∧ n.text.length ≤ digits10 then .int (atoi n.text) else .double (Doubles.strtod n.text)

theorem isDigits_digits : IsDigits n.digits := by
  rcases n.digits_ok with h | ⟨h, -⟩
  · rw [h]
    refine ⟨List.cons_ne_nil _ _, ?_⟩
    intro ch hch
    rw [List.mem_singleton.mp hch]
    rfl
  · exact h

variable {n} {rest : Text}

theorem integerPart_eq (hrest : (cur rest).isDigit = false) :
    integerPart (n.digits ++ rest) = .ok (n.digits, rest) := by
  rw [integerPart, cur_append n.isDigits_digits.1]
  rcases n.digits_ok with h | ⟨h, hzero⟩
  · have hcur : cur ['0'] = '0' := rfl
    rw [h, if_pos hcur]
    exact if_neg (by simp [hrest])
  · obtain ⟨htake, hdrop⟩ := span_digits h (noDigit_of_cur hrest)
    rw [if_neg hzero, if_pos (cur_of_isDigits h), htake, hdrop]

theorem decimalPart_eq (hdigit : (cur rest).isDigit = false) (hdot : cur rest ≠ '.') :
    decimalPart (n.decimals ++ rest) = .ok (n.decimals, rest) := by
  rw [decimalPart]
  rcases n.decimals_ok with h | ⟨ds, hds, h⟩
  · rw [h, List.nil_append, if_neg hdot]
  · obtain ⟨htake, hdrop⟩ := span_digits hds (noDigit_of_cur hdigit)
    have hcur : (cur (ds ++ rest)).isDigit = true := by rw [cur_append hds.1, cur_of_isDigits hds]
    rw [h]
    show (if '.' = '.' then if (cur (ds ++ rest)).isDigit then _ else _ else _) = _
    rw [if_pos rfl, if_pos hcur]
    show Except.ok ('.' :: (ds ++ rest).takeWhile _, (ds ++ rest).dropWhile _) = _
    rw [htake, hdrop]

theorem exponentPart_eq (hdigit : (cur rest).isDigit = false) (he : cur rest ≠ 'e' ∧ cur rest ≠ 'E') :
    exponentPart (n.exponent ++ rest) = .ok (n.exponent, rest) := by
  rw [exponentPart]
  rcases n.exponent_ok with h | ⟨e, s, ds, hletter, hs, hds, h⟩
  · rw [h, List.nil_append, if_neg (not_or.mpr he)]
  · obtain ⟨htake, hdrop⟩ := span_digits hds (noDigit_of_cur hdigit)
    have hcur : (cur (ds ++ rest)).isDigit = true := by rw [cur_append hds.1, cur_of_isDigits hds]
    have hsign : signPart (fun ch => ch == '+' || ch == '-') (s ++ (ds ++ rest)) = s := by
      rcases hs with rfl | rfl | rfl
      · refine signPart_digits hds rest fun ch h => ?_
        rcases (by simpa using h : ch = '+' ∨ ch = '-') with rfl | rfl <;> rfl
      · rfl
      · rfl
    rw [h, List.cons_append, List.append_assoc]
    show (if e = 'e' ∨ e = 'E' then _ else _) = _
    rw [if_pos hletter]
    dsimp only [List.tail_cons]
    rw [hsign, List.drop_left, if_pos hcur, htake, hdrop]
    rfl

/-- The character after the digits, and whether a decimal point or an exponent begins there. -/
theorem cur_exponent (hrest : Follows rest) : (cur (n.exponent ++ rest)).isDigit = false ∧
    cur (n.exponent ++ rest) ≠ '.' ∧
    ((cur (n.exponent ++ rest) ≠ 'e' ∧ cur (n.exponent ++ rest) ≠ 'E') ↔ n.exponent = []) := by
  rcases n.exponent_ok with h | ⟨e, s, ds, hletter, -, -, h⟩
  · rw [h, List.nil_append]
    exact ⟨hrest.isDigit, hrest.ne (by decide),
      iff_of_true ⟨hrest.ne (by decide), hrest.ne (by decide)⟩ rfl⟩
  · rw [h]
    show e.isDigit = false ∧ e ≠ '.' ∧ ((e ≠ 'e' ∧ e ≠ 'E') ↔ _)
    rcases hletter with rfl | rfl <;> simp

theorem cur_decimals (hrest : Follows rest) : (cur (n.decimals ++ (n.exponent ++ rest))).isDigit = false ∧
    ((cur (n.decimals ++ (n.exponent ++ rest)) ≠ '.' ∧ cur (n.decimals ++ (n.exponent ++ rest)) ≠ 'e' ∧
      cur (n.decimals ++ (n.exponent ++ rest)) ≠ 'E') ↔ n.Whole) := by
  obtain ⟨hdigit, hdot, hexp⟩ := cur_exponent (n := n) hrest
  rcases n.decimals_ok with h | ⟨ds, -, h⟩
  · rw [h, List.nil_append, Whole, h]
    exact ⟨hdigit, by rw [hexp]; simp [hdot]⟩
  · rw [h, Whole, h]
    show '.'.isDigit = false ∧ (('.' ≠ '.' ∧ _) ↔ _)
    simp

/-- A number is read as it was written. -/
theorem parseNumber_text (n : NumberText) (hrest : Follows rest) :
    parseNumber (n.text ++ rest) = .ok ((n.value : Value D), rest) := by
  obtain ⟨hdigit, hwhole⟩ := cur_decimals (n := n) hrest
  obtain ⟨hdigit', hdot, -⟩ := cur_exponent (n := n) hrest
  have htext : n.text ++ rest = n.sign ++ (n.digits ++ (n.decimals ++ (n.exponent ++ rest))) := by
    simp [text]
  have hsign : signPart (· == '-') (n.sign ++ (n.digits ++ (n.decimals ++ (n.exponent ++ rest)))) =
      n.sign := by
    rcases n.sign_ok with h | h
    · rw [h]
      refine signPart_digits n.isDigits_digits _ fun ch hch => ?_
      rw [beq_iff_eq.mp hch]
      rfl
    · rw [h]
      rfl
  rw [parseNumber, htext, hsign, List.drop_left, integerPart_eq hdigit, ok_bind]
  dsimp only
  by_cases hint : n.Whole ∧ (n.sign ++ n.digits).length ≤ digits10
  · have hall : n.text = n.sign ++ n.digits := by simp [text, hint.1.1, hint.1.2]
    rw [if_pos ⟨hwhole.mpr hint.1, hint.2⟩, value, hall, if_pos hint, hint.1.1, hint.1.2]
    rfl
  · have hall : ¬ (n.Whole ∧ n.text.length ≤ digits10) := by
      rintro ⟨hw, hlen⟩
      refine hint ⟨hw, ?_⟩
      simpa [text, hw.1, hw.2] using hlen
    have hnot := fun h : _ ∧ (n.sign ++ n.digits).length ≤ digits10 => hint ⟨hwhole.mp h.1, h.2⟩
    rw [if_neg hnot, decimalPart_eq hdigit' hdot, ok_bind]
    dsimp only
    rw [exponentPart_eq hrest.isDigit ⟨hrest.ne (by decide), hrest.ne (by decide)⟩, ok_bind, value, if_neg hall]
    rfl

theorem text_cons (n : NumberText) : ∃ ch t, n.text = ch :: t ∧ (ch = '-' ∨ ch.isDigit = true) := by
  obtain ⟨hne, hall⟩ := n.isDigits_digits
  rcases n.sign_ok with h | h
  · obtain ⟨c, ds, hds⟩ := List.exists_cons_of_ne_nil hne
    refine ⟨c, ds ++ n.decimals ++ n.exponent, by simp [text, h, hds], .inr (hall c ?_)⟩
    rw [hds]
    exact List.mem_cons_self
  · exact ⟨'-', n.digits ++ n.decimals ++ n.exponent, by simp [text, h], .inl rfl⟩

end NumberText

/-! ### Whole numbers -/

theorem intOf_digits {ds : Text} (h : IsDigits ds) : intOf ds = (Nat.ofDigitChars 10 ds 0 : Nat) := by
  have hcur := cur_of_isDigits h
  unfold intOf
  split
  · cases hcur
  · rfl

theorem intOf_dumpInt (n : Int) : intOf (dumpInt n) = n := by
  cases n with
  | ofNat n =>
    rw [dumpInt, intOf_digits (isDigits_toDigits n), Nat.ofDigitChars_ten_toDigits]
    rfl
  | negSucc n =>
    show -((Nat.ofDigitChars 10 (Nat.toDigits 10 (n + 1)) 0 : Nat) : Int) = _
    rw [Nat.ofDigitChars_ten_toDigits]
    rfl

theorem cur_toDigits {n : Nat} (h : 0 < n) : cur (Nat.toDigits 10 n) ≠ '0' := by
  induction n using Nat.strongRecOn with
  | ind n ih =>
    rw [Nat.toDigits_eq_if (by decide)]
    split
    · rename_i hlt
      have hdigit : ∀ d : Fin 10, 0 < (d : Nat) → (d : Nat).digitChar ≠ '0' := by decide
      exact hdigit ⟨n, hlt⟩ h
    · rw [cur_append Nat.toDigits_ne_nil]
      exact ih (n / 10) (by omega) (by omega)

/-- The text of an `int`. -/
def intText (n : Int) : NumberText where
  sign := if n < 0 then ['-'] else []
  digits := Nat.toDigits 10 n.natAbs
  decimals := []
  exponent := []
  sign_ok := by
    split
    · exact .inr rfl
    · exact .inl rfl
  digits_ok := by
    rcases Nat.eq_zero_or_pos n.natAbs with h | h
    · exact .inl (by rw [h]; rfl)
    · exact .inr ⟨isDigits_toDigits _, cur_toDigits h⟩
  decimals_ok := .inl rfl
  exponent_ok := .inl rfl

theorem intText_text (n : Int) : (intText n).text = dumpInt n := by
  cases n with
  | ofNat n => simp [NumberText.text, intText, dumpInt]
  | negSucc n => simp [NumberText.text, intText, dumpInt, Int.natAbs_negSucc]

theorem ofDigitChars_lt {ds : Text} (h : ∀ c ∈ ds, c.isDigit = true) (init : Nat) :
    Nat.ofDigitChars 10 ds init < 10 ^ ds.length * (init + 1) := by
  induction ds generalizing init with
  | nil => simp
  | cons c ds ih =>
    have hc := Char.isDigit_iff_toNat.mp (h c List.mem_cons_self)
    have hzero : '0'.toNat = 48 := rfl
    have hnine : '9'.toNat = 57 := rfl
    rw [Nat.ofDigitChars_cons, List.length_cons, Nat.pow_succ, Nat.mul_assoc]
    refine lt_of_lt_of_le (ih (fun c hc => h c (List.mem_cons_of_mem _ hc)) _) ?_
    refine Nat.mul_le_mul_left _ ?_
    omega

/-- A number that is short is in the range of `int`. -/
theorem NumberText.Whole.range {n : NumberText} (h : n.Whole) (hlen : n.text.length ≤ digits10) :
    -2 ^ 31 ≤ intOf n.text ∧ intOf n.text < 2 ^ 31 := by
  have hds := n.isDigits_digits
  have hlt := ofDigitChars_lt hds.2 0
  have hle : n.digits.length ≤ 9 := by
    simp only [NumberText.text, List.length_append] at hlen
    exact le_trans (by omega) hlen
  have hpow : 10 ^ n.digits.length ≤ 10 ^ 9 := Nat.pow_le_pow_right (by decide) hle
  have htext : n.text = n.sign ++ n.digits := by simp [NumberText.text, h.1, h.2]
  rw [htext]
  rcases n.sign_ok with hs | hs
  · rw [hs, List.nil_append, intOf_digits hds]
    omega
  · rw [hs]
    show _ ≤ -((Nat.ofDigitChars 10 n.digits 0 : Nat) : Int) ∧ -((Nat.ofDigitChars 10 n.digits 0 : Nat) : Int) < _
    omega

/-! ### Doubles -/

/-- What the C library says of `double`s. -/
class LawfulDoubles (D : Type) [Doubles D] : Prop where
  print_text (d : D) : Doubles.isfinite d = true → ∃ n : NumberText, Doubles.print d = n.text
  /-- Seventeen digits tell a `double` from any other. -/
  strtod_print (d : D) : Doubles.isfinite d = true →
    Doubles.eq (Doubles.strtod (Doubles.print d)) d = true
  /-- Every `int` is a `double`. -/
  strtod_whole (n : NumberText) : n.Whole → -2 ^ 31 ≤ intOf n.text → intOf n.text < 2 ^ 31 →
    Doubles.eq (Doubles.strtod n.text : D) (Doubles.ofInt (atoi n.text)) = true
  toInt_of_eq (d : D) (n : Int32) : Doubles.eq d (Doubles.ofInt n) = true → Doubles.toInt d = n
  eq_symm (d d' : D) : Doubles.eq d d' = true → Doubles.eq d' d = true
  eq_trans (d d' d'' : D) : Doubles.eq d d' = true → Doubles.eq d' d'' = true → Doubles.eq d d'' = true

def isNumber : Value D → Bool
  | .int _ => true
  | .double _ => true
  | _ => false

theorem NumberText.isNumber_value (n : NumberText) : isNumber (n.value : Value D) = true := by
  unfold value
  split <;> rfl

/-- Numbers are compared by their values, whether `int` or `double`. -/
theorem eq_of_isNumber {v w : Value D} (hv : isNumber v = true) (hw : isNumber w = true) :
    eq v w = Doubles.eq (numberValue v) (numberValue w) := by
  cases v <;> cases hv <;> cases w <;> cases hw <;> rw [eq] <;> rfl

section Lawful

open LawfulDoubles

variable [LawfulDoubles D]

theorem atoi_dumpInt (n : Int32) : atoi (dumpInt n.toInt) = n := by
  rw [atoi, intOf_dumpInt, Int32.ofInt_toInt]

/-- Whether it becomes an `int` or a `double`, a number has the value that `strtod` gives it. -/
theorem NumberText.eq_value {n : NumberText} {v : Value D} (hv : isNumber v = true)
    (h : Doubles.eq (Doubles.strtod n.text) (numberValue v) = true) : eq n.value v = true := by
  rw [eq_of_isNumber n.isNumber_value hv, value]
  split
  · rename_i hshort
    obtain ⟨hlo, hhi⟩ := hshort.1.range hshort.2
    exact eq_trans _ _ _ (eq_symm _ _ (strtod_whole n hshort.1 hlo hhi)) h
  · exact h

theorem strtod_dumpInt (n : Int32) :
    Doubles.eq (Doubles.strtod (dumpInt n.toInt) : D) (Doubles.ofInt n) = true := by
  have hlo := n.le_toInt
  have hhi := n.toInt_lt
  have h := strtod_whole (D := D) (intText n.toInt) ⟨rfl, rfl⟩
  rw [intText_text, intOf_dumpInt, atoi_dumpInt] at h
  exact h hlo hhi

end Lawful

end Json11

end Rsock
