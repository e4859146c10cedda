import Rsock.Proofs.Json11DumpProofs

/-!
# Proofs: what json11 accepts

`Post` is what holds of every result of a function of the parser; errors always have a message. The parser
takes something of the text in every round of its loops, so that they never run out of fuel, and what it
accepts can be written and read again (`parse_again`). The configuration is among the values that are read
back as they were written (`config_read_back`).
-/

namespace Rsock

namespace Json11

open CMem

variable {D : Type} {strategy : JsonParse}

/-! ## What holds of every result -/

/-- `p` holds of the result; an error has a message. -/
def Post {α : Type} (p : α → Prop) : Except Text α → Prop
  | .ok a => p a
  | .error err => err ≠ []

section Post

variable {α β : Type} {p : α → Prop} {q : β → Prop}

/-- The second step may use what is known of the result of the first one. -/
theorem Post.bind {x : Except Text α} {f : α → Except Text β} (hx : Post p x)
    (hf : ∀ a, p a → Post q (f a)) : Post q (x >>= f) := by
  cases x with
  | error err => exact hx
  | ok a => exact hf a hx

theorem Post.bind_congr {x : Except Text α} {f g : α → Except Text β} (hx : Post p x)
    (h : ∀ a, p a → f a = g a) : x >>= f = x >>= g := by
  cases x with
  | error err => rfl
  | ok a => exact h a hx

/-- A weaker condition holds too. -/
theorem Post.imp {p' : α → Prop} {x : Except Text α} (hx : Post p x) (h : ∀ a, p a → p' a) : Post p' x := by
  cases x with
  | error err => exact hx
  | ok a => exact h a hx

/-- An error has a text. -/
theorem post_fail {s : String} (h : s ≠ "") : Post p (fail s.toList) := by
  simp [Post, fail, h]

theorem post_fail_append {s : String} (h : s ≠ "") (t : Text) : Post p (fail (s.toList ++ t)) := by
  simp [Post, fail, h]

end Post

/-- Something has been taken of the text. -/
def Shorter (str rest : Text) : Prop := rest.length < str.length

theorem shorter_of_le {ch : Char} {str rest : Text} (h : rest.length ≤ str.length) : Shorter (ch :: str) rest :=
  Nat.lt_succ_of_le h

theorem Shorter.cons {ch : Char} {str rest : Text} (h : Shorter str rest) : Shorter (ch :: str) rest :=
  Nat.lt_succ_of_lt h

/-- Less and less of the text is left. -/
theorem Shorter.trans {str rest rest' : Text} (h : Shorter str rest) (h' : Shorter rest rest') :
    Shorter str rest' := Nat.lt_trans h' h

theorem shorter_of_cur {p : Char → Bool} {str : Text} (hp : p '\x00' = false) (h : p (cur str) = true) :
    Shorter str str.tail := by
  cases str with
  | nil => cases hp.symm.trans h
  | cons ch str => exact Nat.lt_succ_self _

/-! ## Tokens -/

theorem length_consumeWhitespace (str : Text) : (consumeWhitespace str).length ≤ str.length :=
  List.IsSuffix.length_le (List.dropWhile_suffix _)

/-- A comment takes some of the text. -/
theorem post_skipComment (str : Text) : Post (Shorter str) (skipComment str) := by
  fun_induction skipComment str with
  | case1 rest => exact (shorter_of_le (Nat.le_refl _)).cons
  | case2 ch ch' rest _ ih => exact ih.imp fun _ h => h.cons
  | case3 => exact post_fail (by decide)

theorem post_consumeComment (str : Text) :
    Post (fun r => if r.1 then Shorter str r.2 else r.2 = str) (consumeComment str) := by
  unfold consumeComment
  split
  · split
    · exact post_fail (by decide)
    · exact (shorter_of_le (List.IsSuffix.length_le (List.dropWhile_suffix _))).cons
    · exact (post_skipComment _).bind fun _ h => h.cons.cons
    · exact post_fail (by decide)
  · rfl

theorem post_consumeComments (fuel : Nat) (str : Text) :
    Post (fun rest => rest.length ≤ str.length) (consumeComments fuel str) := by
  induction fuel generalizing str with
  | zero => exact Nat.le_refl _
  | succ fuel ih =>
    rw [consumeComments]
    refine (post_consumeComment str).bind ?_
    rintro ⟨comment_found, rest⟩ h
    have hrest := length_consumeWhitespace rest
    cases comment_found with
    | true =>
      refine (ih (consumeWhitespace rest)).imp fun rest' hle => ?_
      exact (hle.trans hrest).trans (Nat.le_of_lt h)
    | false =>
      have hstr : rest = str := h
      rw [hstr] at hrest
      show (consumeWhitespace rest).length ≤ str.length
      rw [hstr]
      exact hrest

/-- The loop over comments ends before its fuel does. -/
theorem consumeComments_fuel {fuel fuel' : Nat} {str : Text} (h : str.length < fuel) (h' : str.length < fuel') :
    consumeComments fuel str = consumeComments fuel' str := by
  induction fuel generalizing fuel' str with
  | zero => cases h
  | succ fuel ih =>
    cases fuel' with
    | zero => cases h'
    | succ fuel' =>
      rw [consumeComments, consumeComments]
      refine (post_consumeComment str).bind_congr ?_
      rintro ⟨comment_found, rest⟩ hrest
      cases comment_found with
      | false => rfl
      | true =>
        have hlt : (consumeWhitespace rest).length < str.length :=
          Nat.lt_of_le_of_lt (length_consumeWhitespace rest) hrest
        exact ih (Nat.lt_of_lt_of_le hlt (Nat.le_of_lt_succ h)) (Nat.lt_of_lt_of_le hlt (Nat.le_of_lt_succ h'))

/-- Blanks and comments add nothing. -/
theorem post_consumeGarbage (str : Text) :
    Post (fun rest => rest.length ≤ str.length) (consumeGarbage strategy str) := by
  have hle := length_consumeWhitespace str
  cases strategy with
  | standard => exact hle
  | comments => exact (post_consumeComments _ _).imp fun rest h => h.trans hle

/-- A token takes a character. -/
theorem post_getNextToken (str : Text) : Post (fun r => Shorter str r.2) (getNextToken strategy str) := by
  refine (post_consumeGarbage str).bind ?_
  intro rest hle
  cases rest with
  | nil => exact post_fail (by decide)
  | cons ch rest => exact Nat.lt_of_lt_of_le (Nat.lt_succ_self _) hle

/-! ## Strings and numbers -/

theorem post_parseChars (last : Int) (out str : Text) :
    Post (fun r => Shorter str r.2) (parseChars last out str) := by
  fun_induction parseChars last out str with
  | case1 => exact post_fail (by decide)
  | case2 last out rest => exact Nat.lt_succ_self _
  | case3 last out ch rest =>
    rw [List.append_assoc]
    exact post_fail_append (by decide) _
  | case4 last out ch rest _ _ _ ih => exact ih.imp fun _ h => h.cons
  | case5 => exact post_fail (by decide)
  | case6 => exact post_fail_append (by decide) _
  | case7 last out ch _ _ _ c₁ c₂ c₃ c₄ rest _ _ _ _ _ ih =>
    exact ih.imp fun _ h => h.cons.cons.cons.cons.cons.cons
  | case8 => exact post_fail_append (by decide) _
  | case9 => exact post_fail_append (by decide) _
  | case10 last out ch _ _ _ ch' rest _ _ _ ih => exact ih.imp fun _ h => h.cons.cons

theorem length_dropWhile_le (str : Text) : (str.dropWhile Char.isDigit).length ≤ str.length :=
  List.IsSuffix.length_le (List.dropWhile_suffix _)

theorem shorter_dropWhile {str : Text} (h : (cur str).isDigit = true) :
    Shorter str (str.dropWhile Char.isDigit) := by
  cases str with
  | nil => cases h
  | cons ch str =>
    have hdrop : (ch :: str).dropWhile Char.isDigit = str.dropWhile Char.isDigit :=
      List.dropWhile_cons_of_pos h
    rw [hdrop]
    exact shorter_of_le (length_dropWhile_le str)

theorem post_integerPart (str : Text) : Post (fun r => Shorter str r.2) (integerPart str) := by
  unfold integerPart
  split
  · rename_i hzero
    split
    · exact post_fail (by decide)
    · exact shorter_of_cur (p := (· == '0')) rfl (beq_iff_eq.mpr hzero)
  · split
    · rename_i hdigit
      exact shorter_dropWhile hdigit
    · rw [List.append_assoc]
      exact post_fail_append (by decide) _

theorem post_decimalPart (str : Text) :
    Post (fun r => r.2.length ≤ str.length) (decimalPart str) := by
  unfold decimalPart
  split
  · split
    · refine (length_dropWhile_le _).trans ?_
      rw [List.length_tail]
      exact Nat.sub_le _ _
    · exact post_fail (by decide)
  · exact Nat.le_refl _

theorem post_exponentPart (str : Text) :
    Post (fun r => r.2.length ≤ str.length) (exponentPart str) := by
  unfold exponentPart
  split
  · dsimp only
    split
    · refine (length_dropWhile_le _).trans ?_
      rw [List.length_drop, List.length_tail, Nat.sub_sub]
      exact Nat.sub_le _ _
    · exact post_fail (by decide)
  · exact Nat.le_refl _

/-- A number is neither an array nor an object. -/
theorem post_parseNumber [Doubles D] (str : Text) :
    Post (fun r => isNumber r.1 = true ∧ Shorter str r.2)
      (parseNumber str : Except Text (Value D × Text)) := by
  unfold parseNumber
  dsimp only
  refine (post_integerPart _).bind ?_
  intro r hr
  have hshort : Shorter str r.2 := Nat.lt_of_lt_of_le hr (by simp)
  split
  · exact ⟨rfl, hshort⟩
  · refine (post_decimalPart r.2).bind fun r' hr' => ?_
    refine (post_exponentPart r'.2).bind fun r'' hr'' => ?_
    exact ⟨rfl, Nat.lt_of_le_of_lt (hr''.trans hr') hshort⟩

theorem post_expect {expected : Text} (hne : expected ≠ []) (res : Value D) (ch : Char) (str : Text) :
    Post (fun r => r.1 = res ∧ Shorter (ch :: str) r.2) (expect expected res (ch :: str)) := by
  unfold expect
  split
  · have hpos := List.length_pos_of_ne_nil hne
    refine ⟨rfl, ?_⟩
    show ((ch :: str).drop expected.length).length < (ch :: str).length
    rw [List.length_drop, List.length_cons]
    omega
  · rw [List.append_assoc, List.append_assoc]
    exact post_fail_append (by decide) _

/-! ## Arrays and objects -/

section Loops

variable {value : Text → Except Text (Value D × Text)} {p : Value D → Prop}

theorem post_parseItems (hvalue : ∀ str, Post (fun r => p r.1 ∧ Shorter str r.2) (value str)) (fuel : Nat)
    {data : List (Value D)} (hdata : ∀ v ∈ data, p v) (str : Text) :
    Post (fun r => (∃ vs, r.1 = .array vs ∧ ∀ v ∈ vs, p v) ∧ Shorter str r.2)
      (parseItems strategy value fuel data str) := by
  induction fuel generalizing data str with
  | zero => exact post_fail (by decide)
  | succ fuel ih =>
    rw [parseItems]
    refine (hvalue str).bind ?_
    rintro ⟨v, str₁⟩ ⟨hv, h₁⟩
    have hdata' : ∀ w ∈ data ++ [v], p w := by
      intro w hw
      rcases List.mem_append.mp hw with hw | hw
      · exact hdata w hw
      · rw [List.mem_singleton.mp hw]
        exact hv
    refine (post_getNextToken str₁).bind ?_
    rintro ⟨ch, str₂⟩ h₂
    dsimp only
    split
    · exact ⟨⟨_, rfl, hdata'⟩, h₁.trans h₂⟩
    · split
      · exact post_fail_append (by decide) _
      · refine (post_getNextToken str₂).bind ?_
        rintro ⟨ch', str₃⟩ h₃
        refine (ih hdata' (ch' :: str₃)).imp ?_
        rintro ⟨v', str₄⟩ ⟨hvs, h₄⟩
        -- the character that was read ahead makes up for no more than one token
        refine ⟨hvs, Nat.lt_of_lt_of_le h₄ ?_⟩
        exact Nat.succ_le_of_lt ((h₁.trans h₂).trans h₃)

theorem post_parseMembers (hvalue : ∀ str, Post (fun r => p r.1 ∧ Shorter str r.2) (value str)) (fuel : Nat)
    {data : Members D} (hdata : ∀ e ∈ data.entries, p e.2) (ch : Char) (str : Text) :
    Post (fun r => (∃ m : Members D, r.1 = .object m.entries ∧ ∀ e ∈ m.entries, p e.2) ∧ Shorter str r.2)
      (parseMembers strategy value fuel data ch str) := by
  induction fuel generalizing data ch str with
  | zero => exact post_fail (by decide)
  | succ fuel ih =>
    rw [parseMembers]
    split
    · exact post_fail_append (by decide) _
    · refine (post_parseChars _ _ str).bind ?_
      rintro ⟨key, str₁⟩ h₁
      refine (post_getNextToken str₁).bind ?_
      rintro ⟨ch₂, str₂⟩ h₂
      dsimp only
      split
      · exact post_fail_append (by decide) _
      · refine (hvalue str₂).bind ?_
        rintro ⟨v, str₃⟩ ⟨hv, h₃⟩
        have h₃ := (h₁.trans h₂).trans h₃
        have hdata' : ∀ e ∈ (data.assign key v).entries, p e.2 := by
          intro e he
          rcases StdMap.mem_assign.mp he with ⟨he, -⟩ | ⟨e₀, -, rfl⟩ | ⟨-, rfl⟩
          · exact hdata e he
          · exact hv
          · exact hv
        refine (post_getNextToken str₃).bind ?_
        rintro ⟨ch₄, str₄⟩ h₄
        dsimp only
        split
        · exact ⟨⟨_, rfl, hdata'⟩, h₃.trans h₄⟩
        · split
          · exact post_fail_append (by decide) _
          · refine (post_getNextToken str₄).bind ?_
            rintro ⟨ch₅, str₅⟩ h₅
            refine (ih hdata' ch₅ str₅).imp ?_
            rintro ⟨v', str₆⟩ ⟨hm, h₆⟩
            exact ⟨hm, ((h₃.trans h₄).trans h₅).trans h₆⟩

/-- The loop over an array ends before its fuel does. -/
theorem parseItems_fuel (hvalue : ∀ str, Post (fun r => p r.1 ∧ Shorter str r.2) (value str))
    {fuel fuel' : Nat} (data : List (Value D)) {ch : Char} {str : Text} (h : str.length < fuel)
    (h' : str.length < fuel') :
    parseItems strategy value fuel data (ch :: str) = parseItems strategy value fuel' data (ch :: str) := by
  induction fuel generalizing fuel' data ch str with
  | zero => cases h
  | succ fuel ih =>
    cases fuel' with
    | zero => cases h'
    | succ fuel' =>
      rw [parseItems, parseItems]
      refine (hvalue _).bind_congr ?_
      rintro ⟨v, str₁⟩ ⟨-, h₁⟩
      refine (post_getNextToken str₁).bind_congr ?_
      rintro ⟨ch₂, str₂⟩ h₂
      dsimp only
      split_ifs
      · rfl
      · rfl
      · refine (post_getNextToken str₂).bind_congr ?_
        rintro ⟨ch₃, str₃⟩ h₃
        have hlt : str₃.length < str.length := by
          simp only [Shorter, List.length_cons] at h₁ h₂ h₃
          omega
        exact ih _ (Nat.lt_of_lt_of_le hlt (Nat.le_of_lt_succ h)) (Nat.lt_of_lt_of_le hlt (Nat.le_of_lt_succ h'))

/-- The loop over an object ends before its fuel does. -/
theorem parseMembers_fuel (hvalue : ∀ str, Post (fun r => p r.1 ∧ Shorter str r.2) (value str))
    {fuel fuel' : Nat} (data : Members D) (ch : Char) {str : Text} (h : str.length < fuel)
    (h' : str.length < fuel') :
    parseMembers strategy value fuel data ch str = parseMembers strategy value fuel' data ch str := by
  induction fuel generalizing fuel' data ch str with
  | zero => cases h
  | succ fuel ih =>
    cases fuel' with
    | zero => cases h'
    | succ fuel' =>
      rw [parseMembers, parseMembers]
      split_ifs
      · rfl
      · refine (post_parseChars _ _ str).bind_congr ?_
        rintro ⟨key, str₁⟩ h₁
        refine (post_getNextToken str₁).bind_congr ?_
        rintro ⟨ch₂, str₂⟩ h₂
        dsimp only
        split_ifs
        · rfl
        · refine (hvalue str₂).bind_congr ?_
          rintro ⟨v, str₃⟩ ⟨-, h₃⟩
          refine (post_getNextToken str₃).bind_congr ?_
          rintro ⟨ch₄, str₄⟩ h₄
          dsimp only
          split_ifs
          · rfl
          · rfl
          · refine (post_getNextToken str₄).bind_congr ?_
            rintro ⟨ch₅, str₅⟩ h₅
            have hlt : str₅.length < str.length := (((h₁.trans h₂).trans h₃).trans h₄).trans h₅
            exact ih _ _ (Nat.lt_of_lt_of_le hlt (Nat.le_of_lt_succ h))
              (Nat.lt_of_lt_of_le hlt (Nat.le_of_lt_succ h'))

end Loops

/-! ## The whole parser -/

/-- What is accepted is what a `std::map` can hold, and not nested too deep. -/
def Accepted (levels : Nat) (v : Value D) : Prop := nesting v < levels ∧ Everywhere Sorted v

theorem accepted_of_isNumber {levels : Nat} {v : Value D} (h : isNumber v = true) : Accepted (levels + 1) v := by
  cases v with
  | int value => exact ⟨Nat.succ_pos _, trivial⟩
  | double value => exact ⟨Nat.succ_pos _, trivial⟩
  | _ => cases h

theorem accepted_array {levels : Nat} {values : List (Value D)} (h : ∀ v ∈ values, Accepted levels v) :
    Accepted (levels + 1) (.array values) := by
  refine ⟨Nat.lt_succ_of_le (nestingItems_le_iff.mpr fun v hv => (h v hv).1), trivial, ?_⟩
  exact (everywhereItems_iff Sorted).mpr fun v hv => (h v hv).2

theorem accepted_object {levels : Nat} {m : Members D} (h : ∀ e ∈ m.entries, Accepted levels e.2) :
    Accepted (levels + 1) (.object m.entries) := by
  refine ⟨Nat.lt_succ_of_le (nestingMembers_le_iff.mpr fun e he => (h e he).1), ?_, ?_⟩
  · exact List.pairwise_map.mpr m.sorted
  · exact (everywhereMembers_iff Sorted).mpr fun e he => (h e he).2

section Parse

variable [Doubles D]

theorem post_parseJson (levels : Nat) (str : Text) :
    Post (fun r => Accepted levels r.1 ∧ Shorter str r.2)
      (parseJson strategy levels str : Except Text (Value D × Text)) := by
  induction levels generalizing str with
  | zero => exact post_fail (by decide)
  | succ levels ih =>
    rw [parseJson]
    refine (post_getNextToken str).bind ?_
    rintro ⟨ch, str₁⟩ h₁
    have hexpect : ∀ {expected : Text} (res : Value D), expected ≠ [] → Accepted (levels + 1) res →
        Post (fun r => Accepted (levels + 1) r.1 ∧ Shorter str r.2) (expect expected res (ch :: str₁)) := by
      intro expected res hne hres
      refine (post_expect hne res ch str₁).imp ?_
      rintro ⟨v, rest⟩ ⟨hv, hrest⟩
      rw [hv]
      exact ⟨hres, Nat.lt_of_lt_of_le hrest (Nat.succ_le_of_lt h₁)⟩
    dsimp only
    split_ifs
    · refine (post_parseNumber (ch :: str₁)).imp ?_
      rintro ⟨v, rest⟩ ⟨hv, hrest⟩
      exact ⟨accepted_of_isNumber hv, Nat.lt_of_lt_of_le hrest (Nat.succ_le_of_lt h₁)⟩
    · exact hexpect _ (by decide) ⟨Nat.succ_pos _, trivial⟩
    · exact hexpect _ (by decide) ⟨Nat.succ_pos _, trivial⟩
    · exact hexpect _ (by decide) ⟨Nat.succ_pos _, trivial⟩
    · refine (post_parseChars _ _ str₁).bind ?_
      rintro ⟨s, rest⟩ hrest
      exact ⟨⟨Nat.succ_pos _, trivial⟩, h₁.trans hrest⟩
    · refine (post_getNextToken str₁).bind ?_
      rintro ⟨ch₂, str₂⟩ h₂
      have h₂ := h₁.trans h₂
      dsimp only
      split_ifs
      · exact ⟨accepted_object (m := .empty) (by intro e he; cases he), h₂⟩
      · refine (post_parseMembers ih _ (by intro e he; cases he) ch₂ str₂).imp ?_
        rintro ⟨v, rest⟩ ⟨⟨m, hv, hm⟩, hrest⟩
        rw [hv]
        exact ⟨accepted_object hm, h₂.trans hrest⟩
    · refine (post_getNextToken str₁).bind ?_
      rintro ⟨ch₂, str₂⟩ h₂
      have h₂ := h₁.trans h₂
      dsimp only
      split_ifs
      · exact ⟨accepted_array (by intro v hv; cases hv), h₂⟩
      · refine (post_parseItems ih _ (by intro v hv; cases hv) (ch₂ :: str₂)).imp ?_
        rintro ⟨v, rest⟩ ⟨⟨vs, hv, hvs⟩, hrest⟩
        rw [hv]
        exact ⟨accepted_array hvs, Nat.lt_of_lt_of_le hrest (Nat.succ_le_of_lt h₂)⟩
    · exact post_fail_append (by decide) _

/-- A value that is returned without an error has its names in order, and values are not nested deeper in
    it than `max_depth`. -/
theorem accepted_of_parse {str : Text} {v : Value D} (h : parse strategy str = (v, [])) :
    Accepted (max_depth + 1) v := by
  have hpost : Post (fun r : Value D × Text => Accepted (max_depth + 1) r.1 ∧ Shorter str r.2)
      (parseJson strategy (max_depth + 1) str) := post_parseJson _ str
  unfold parse at h
  cases hjson : parseJson (D := D) strategy (max_depth + 1) str with
  | error err =>
    rw [hjson] at h hpost
    exact absurd (Prod.mk.inj h).2 hpost
  | ok r =>
    rw [hjson] at h hpost
    obtain ⟨result, rest⟩ := r
    have hgarbage : Post _ (consumeGarbage strategy rest) := post_consumeGarbage rest
    dsimp only at h
    cases hrest : consumeGarbage strategy rest with
    | error err =>
      rw [hrest] at h hgarbage
      exact absurd (Prod.mk.inj h).2 hgarbage
    | ok rest' =>
      rw [hrest] at h
      cases rest' with
      | nil =>
        rw [← (Prod.mk.inj h).1]
        exact hpost.1
      | cons ch rest' => exact absurd (Prod.mk.inj h).2 (by simp)

/-- What `parse` has accepted is accepted again, with either strategy, when `dump` has written it; and the
    value is the same. -/
theorem parse_again [LawfulDoubles D] (strategy' : JsonParse) {str : Text} {v : Value D}
    (h : parse strategy str = (v, [])) (hfinite : Everywhere Finite v) :
    ∃ v', parse strategy' (dump v) = (v', []) ∧ eq v' v = true := by
  obtain ⟨hdeep, hsorted⟩ := accepted_of_parse h
  exact parse_of_reads (reads_of_nesting_lt hfinite hsorted hdeep)

theorem parse_again_commented :
    let text := "[-12,/* */\"\\u0041\"]".toList
    let v : Value WholeDouble := .array [.int (-12), .string ['A']]
    parse .comments text = (v, []) ∧ ∃ v', parse .standard (dump v) = (v', []) ∧ eq v' v = true := by
  intro text v
  have htext : text = ['[', '-', '1', '2', ',', '/', '*', ' ', '*', '/', '"', '\\', 'u', '0', '0', '4', '1',
      '"', ']'] := by decide +kernel
  have h : parse .comments text = (v, []) := by
    rw [htext]
    rfl
  exact ⟨h, parse_again .standard h ⟨trivial, trivial, trivial, trivial⟩⟩

/-! ## The configuration -/

mutual

/-- The numbers are in the range of `int`. -/
def Fits : Json → Prop
  | .number n => -2 ^ 31 ≤ n ∧ n < 2 ^ 31
  | .array items => FitsItems items
  | .object members => FitsMembers members
  | _ => True

def FitsItems : List Json → Prop
  | [] => True
  | item :: items => Fits item ∧ FitsItems items

def FitsMembers : List (String × Json) → Prop
  | [] => True
  | (_, value) :: members => Fits value ∧ FitsMembers members

end

mutual

theorem finite_ofJson (j : Json) : Everywhere Finite (ofJson j : Value D) := by
  cases j with
  | array items => exact ⟨trivial, finite_ofItems items⟩
  | object members => exact ⟨trivial, finite_ofMembers members⟩
  | _ => trivial

theorem finite_ofItems (items : List Json) : EverywhereItems Finite (ofItems items : List (Value D)) := by
  cases items with
  | nil => trivial
  | cons item items => exact ⟨finite_ofJson item, finite_ofItems items⟩

theorem finite_ofMembers (members : List (String × Json)) :
    EverywhereMembers Finite (ofMembers members : List (Text × Value D)) := by
  cases members with
  | nil => trivial
  | cons e members => exact ⟨finite_ofJson e.2, finite_ofMembers members⟩

end

section Lawful

open LawfulDoubles

theorem eq_ofInt_self [LawfulDoubles D] (n : Int32) : Doubles.eq (Doubles.ofInt n : D) (Doubles.ofInt n) = true :=
  eq_trans _ _ _ (eq_symm _ _ (strtod_dumpInt n)) (strtod_dumpInt n)

theorem toInt_ofInt [LawfulDoubles D] (n : Int32) : Doubles.toInt (Doubles.ofInt n : D) = n :=
  toInt_of_eq _ _ (eq_ofInt_self n)

theorem Fits.toInt_ofInt {n : Int} (h : Fits (.number n)) : (Int32.ofInt n).toInt = n :=
  Int32.toInt_ofInt_of_le h.1 h.2

mutual

/-- A value that is equal to the one that was built is seen as it was built. -/
theorem toJson_of_eq [LawfulDoubles D] (j : Json) (hj : Fits j) (v : Value D) (h : eq v (ofJson j) = true) : toJson v = j := by
  cases j with
  | null =>
    cases v with
    | null => rfl
    | _ => simp [ofJson, eq] at h
  | number n =>
    cases v with
    | int value =>
      rw [ofJson, eq_of_isNumber rfl rfl] at h
      have hvalue := toInt_of_eq (Doubles.ofInt value : D) (Int32.ofInt n) h
      rw [Json11.toInt_ofInt] at hvalue
      rw [toJson, hvalue, hj.toInt_ofInt]
    | double value =>
      rw [ofJson, eq_of_isNumber rfl rfl] at h
      have hvalue := toInt_of_eq value (Int32.ofInt n) h
      rw [toJson, hvalue, hj.toInt_ofInt]
    | _ => simp [ofJson, eq] at h
  | bool b =>
    cases v with
    | bool value =>
      have hvalue : value = b := by simpa [ofJson, eq] using h
      rw [toJson, hvalue]
    | _ => simp [ofJson, eq] at h
  | string s =>
    cases v with
    | string value =>
      have hvalue : value = s.toList := by simpa [ofJson, eq] using h
      rw [toJson, hvalue, String.ofList_toList]
    | _ => simp [ofJson, eq] at h
  | array items =>
    cases v with
    | array values =>
      rw [toJson, toItems_of_eq items hj values (by simpa [ofJson, eq] using h)]
    | _ => simp [ofJson, eq] at h
  | object members =>
    cases v with
    | object values =>
      rw [toJson, toMembers_of_eq members hj values (by simpa [ofJson, eq] using h)]
    | _ => simp [ofJson, eq] at h

theorem toItems_of_eq [LawfulDoubles D] (items : List Json) (hitems : FitsItems items) (values : List (Value D))
    (h : eqItems values (ofItems items) = true) : toItems values = items := by
  cases items with
  | nil =>
    cases values with
    | nil => rfl
    | cons v values => simp [ofItems, eqItems] at h
  | cons item items =>
    cases values with
    | nil => simp [ofItems, eqItems] at h
    | cons v values =>
      rw [ofItems, eqItems, Bool.and_eq_true] at h
      rw [toItems, toJson_of_eq item hitems.1 v h.1, toItems_of_eq items hitems.2 values h.2]

theorem toMembers_of_eq [LawfulDoubles D] (members : List (String × Json)) (hmembers : FitsMembers members)
    (values : List (Text × Value D)) (h : eqMembers values (ofMembers members) = true) :
    toMembers values = members := by
  cases members with
  | nil =>
    cases values with
    | nil => rfl
    | cons e values => simp [ofMembers, eqMembers] at h
  | cons e members =>
    cases values with
    | nil => simp [ofMembers, eqMembers] at h
    | cons e' values =>
      obtain ⟨name, value⟩ := e
      obtain ⟨name', v⟩ := e'
      rw [ofMembers, eqMembers, Bool.and_eq_true, Bool.and_eq_true, beq_iff_eq] at h
      rw [toMembers, h.1.1, toJson_of_eq value hmembers.1 v h.1.2,
        toMembers_of_eq members hmembers.2 values h.2, String.ofList_toList]

end

theorem confEnv_parse_dump [LawfulDoubles D] {devWithIpv4 : String → Option String} {j : Json} (hfits : Fits j)
    (hsorted : Everywhere Sorted (ofJson j : Value D)) (hdeep : nesting (ofJson j : Value D) ≤ max_depth) :
    (confEnv D devWithIpv4).parse ((confEnv D devWithIpv4).dump j) = (j, "") := by
  have hreads : Reads (parseJson .standard (max_depth + 1)) (ofJson j : Value D) :=
    reads_of_nesting_lt (finite_ofJson j) hsorted (Nat.lt_succ_of_le hdeep)
  obtain ⟨v, hparse, heq⟩ := parse_of_reads hreads
  show (toJson (parse .standard (String.ofList (dump (ofJson j : Value D))).toList : Value D × Text).1,
    String.ofList (parse .standard (String.ofList (dump (ofJson j : Value D))).toList : Value D × Text).2) = _
  rw [String.toList_ofList, hparse, toJson_of_eq j hfits v heq]

/-- The JSON of a configuration is read back by json11 as it was written, with no error. -/
theorem config_read_back [LawfulDoubles D] (devWithIpv4 : String → Option String) (c : RConfig)
    (hrange : -2 ^ 31 ≤ c.param.keepAliveIntervalSec ∧ c.param.keepAliveIntervalSec < 2 ^ 31) :
    (confEnv D devWithIpv4).parse ((confEnv D devWithIpv4).dump c.toJson) = (c.toJson, "") := by
  have hfits : Fits c.toJson := by
    have htimeout := c.param.cap_timeout.toNat_lt
    have hlo := c.param.appKeepAliveSec.toInt32.le_toInt
    have hhi := c.param.appKeepAliveSec.toInt32.toInt_lt
    simp only [RConfig.toJson, RConfig.paramToJson, Fits, FitsMembers, true_and, and_true]
    omega
  have hsorted : Everywhere Sorted (ofJson c.toJson : Value D) := by
    refine ⟨?_, trivial, trivial, ⟨?_, ?_⟩, trivial, trivial, trivial⟩
    · show List.Pairwise (· < ·) ["daemon".toList, "log".toList, "param".toList, "server".toList,
        "verbose".toList]
      decide
    · show List.Pairwise (· < ·) ["cap_timeout".toList, "dev".toList, "duration".toList, "hash".toList,
        "keepalive".toList, "lcapIp".toList, "ludp".toList, "ports".toList, "taddr".toList, "type".toList,
        "unPath".toList]
      decide
    · exact ⟨trivial, trivial, trivial, trivial, trivial, trivial, trivial, trivial, trivial, trivial,
        trivial, trivial⟩
  have hdeep : nesting (ofJson c.toJson : Value D) ≤ max_depth := by
    simp [RConfig.toJson, RConfig.paramToJson, ofJson, ofMembers, nesting, nestingMembers, max_depth]
  exact confEnv_parse_dump hfits hsorted hdeep

theorem config_read_back_new :
    (confEnv WholeDouble fun _ => none).parse
        ((confEnv WholeDouble fun _ => none).dump (RConfig.new true false).toJson) =
      ((RConfig.new true false).toJson, "") :=
  config_read_back (fun _ => none) (RConfig.new true false) (by decide)

end Lawful

end Parse

end Json11

end Rsock
