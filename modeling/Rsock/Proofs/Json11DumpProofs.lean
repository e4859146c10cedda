import Rsock.Proofs.Json11Proofs

/-!
# Proofs: json11 reads what it writes

`Reads` and `Exceeds` say what a parser makes of the text of a value wherever the text stands; the loops
over arrays and objects pass them on from the values to the array or object. By induction on the levels
that are left, `parse` reads what `dump` has written, or refuses it because it is nested too deep
(`parse_dump`).
-/

namespace Rsock

namespace Json11

open CMem

variable {D : Type} {strategy : JsonParse}

/-! ## Values -/

section Everywhere

variable (p : Value D → Prop)

mutual

/-- `p` holds of the value and of every value in it. -/
def Everywhere : Value D → Prop
  | .array values => p (.array values) ∧ EverywhereItems values
  | .object values => p (.object values) ∧ EverywhereMembers values
  | v => p v

def EverywhereItems : List (Value D) → Prop
  | [] => True
  | value :: values => Everywhere value ∧ EverywhereItems values

def EverywhereMembers : List (Text × Value D) → Prop
  | [] => True
  | (_, value) :: values => Everywhere value ∧ EverywhereMembers values

end

/-- It holds of the value itself. -/
theorem everywhere_self {v : Value D} (h : Everywhere p v) : p v := by
  cases v with
  | array values => exact h.1
  | object values => exact h.1
  | _ => exact h

theorem everywhereItems_iff {values : List (Value D)} :
    EverywhereItems p values ↔ ∀ v ∈ values, Everywhere p v := by
  induction values with
  | nil => simp [EverywhereItems]
  | cons v values ih => simp [EverywhereItems, ih]

theorem everywhereMembers_iff {values : List (Text × Value D)} :
    EverywhereMembers p values ↔ ∀ e ∈ values, Everywhere p e.2 := by
  induction values with
  | nil => simp [EverywhereMembers]
  | cons e values ih => simp [EverywhereMembers, ih]

end Everywhere

/-- The names of an object increase, as those of a `std::map` do. -/
def Sorted : Value D → Prop
  | .object values => (values.map Prod.fst).Pairwise (· < ·)
  | _ => True

/-- A value that json11 can hold: an object in it is a map, which keeps its members in the order of their
    names. -/
structure Ordered (D : Type) where
  value : Value D
  sorted : Everywhere Sorted value

/-- No infinity and no NaN. -/
def Finite [Doubles D] : Value D → Prop
  | .double value => Doubles.isfinite value = true
  | _ => True

mutual

/-- How deep values are nested in the value. -/
def nesting : Value D → Nat
  | .array values => nestingItems values
  | .object values => nestingMembers values
  | _ => 0

def nestingItems : List (Value D) → Nat
  | [] => 0
  | value :: values => max (nesting value + 1) (nestingItems values)

def nestingMembers : List (Text × Value D) → Nat
  | [] => 0
  | (_, value) :: values => max (nesting value + 1) (nestingMembers values)

end

/-- How deep an array is nested, by its values. -/
theorem nestingItems_le_iff {values : List (Value D)} {k : Nat} :
    nestingItems values ≤ k ↔ ∀ v ∈ values, nesting v < k := by
  induction values with
  | nil => simp [nestingItems]
  | cons v values ih => rw [nestingItems, max_le_iff, ih, Nat.add_one_le_iff, List.forall_mem_cons]

/-- How deep an object is nested, by its members. -/
theorem nestingMembers_le_iff {values : List (Text × Value D)} {k : Nat} :
    nestingMembers values ≤ k ↔ ∀ e ∈ values, nesting e.2 < k := by
  induction values with
  | nil => simp [nestingMembers]
  | cons e values ih =>
    rw [nestingMembers, max_le_iff, ih, Nat.add_one_le_iff, List.forall_mem_cons]

/-- The name that comes next is greater than those that are there. -/
theorem lt_of_sorted {data : Members D} {name : Text} {v : Value D} {values : List (Text × Value D)}
    (h : ((data.entries ++ (name, v) :: values).map Prod.fst).Pairwise (· < ·)) :
    ∀ e ∈ data.entries, e.1 < name := by
  intro e he
  rw [List.map_append, List.pairwise_append] at h
  exact h.2.2 e.1 (List.mem_map_of_mem he) name (by simp)

/-! ## Reading what was written -/

variable [Doubles D]

/-- The text of `v` is read by `value` as a value that is equal to `v`. -/
def Reads (value : Text → Except Text (Value D × Text)) (v : Value D) : Prop :=
  ∀ rest, Follows rest → ∃ v', value (dump v ++ rest) = .ok (v', rest) ∧ eq v' v = true

/-- The text of `v` is too deep for `value`. -/
def Exceeds (value : Text → Except Text (Value D × Text)) (v : Value D) : Prop :=
  ∀ rest, Follows rest → value (dump v ++ rest) = fail "exceeded maximum nesting depth".toList

/-- The value begins with a token, which does not end an array. -/
def Begins (v : Value D) : Prop := ∃ ch t, dump v = ch :: t ∧ IsToken ch ∧ ch ≠ ']'

section Items

variable {value : Text → Except Text (Value D × Text)} {data : List (Value D)} {v v' : Value D}
  {values : List (Value D)} {rest : Text}

/-- What follows a value in an array is no part of a number. -/
theorem follows_items (values : List (Value D)) (rest : Text) :
    Follows (dumpItems false values ++ ']' :: rest) := by
  cases values with
  | nil => simp [dumpItems, Follows, cur]
  | cons v values => simp [dumpItems, separator, Follows, cur]

/-- The last value. -/
theorem parseItems_last (fuel : Nat) (h : value (dump v ++ ']' :: rest) = .ok (v', ']' :: rest)) :
    parseItems strategy value (fuel + 1) data (dump v ++ ']' :: rest) =
      .ok (.array (data ++ [v']), rest) := by
  rw [parseItems, h, ok_bind]
  dsimp only
  rw [getNextToken_token (by decide), ok_bind]
  rfl

/-- A value with others behind it. -/
theorem parseItems_next (fuel : Nat) {w : Value D} (hw : Begins w)
    (h : value (dump v ++ (dumpItems false (w :: values) ++ ']' :: rest)) =
      .ok (v', dumpItems false (w :: values) ++ ']' :: rest)) :
    parseItems strategy value (fuel + 1) data (dump v ++ (dumpItems false (w :: values) ++ ']' :: rest)) =
      parseItems strategy value fuel (data ++ [v']) (dump w ++ (dumpItems false values ++ ']' :: rest)) := by
  obtain ⟨ch, t, hdump, htoken, -⟩ := hw
  have hitems : dumpItems false (w :: values) ++ ']' :: rest =
      ',' :: ' ' :: (ch :: (t ++ (dumpItems false values ++ ']' :: rest))) := by
    simp [dumpItems, separator, hdump]
  rw [parseItems, h, ok_bind, hitems]
  dsimp only
  rw [getNextToken_token (by decide), ok_bind]
  dsimp only
  rw [if_neg (by decide), if_neg (by decide), getNextToken_blank, getNextToken_token htoken, ok_bind, hdump]
  rfl

/-- The values of an array are read one by one. -/
theorem parseItems_reads (hreads : ∀ w ∈ v :: values, Reads value w) (hbegins : ∀ w ∈ values, Begins w)
    {fuel : Nat} (hfuel : values.length < fuel) :
    ∃ vs, parseItems strategy value fuel data (dump v ++ (dumpItems false values ++ ']' :: rest)) =
      .ok (.array (data ++ vs), rest) ∧ eqItems vs (v :: values) = true := by
  induction values generalizing v fuel data with
  | nil =>
    obtain ⟨fuel, rfl⟩ := Nat.exists_eq_succ_of_ne_zero (Nat.ne_of_gt hfuel)
    obtain ⟨v', hv', heq⟩ := hreads v List.mem_cons_self (']' :: rest) (by simp [Follows, cur])
    refine ⟨[v'], parseItems_last fuel hv', ?_⟩
    simp [eqItems, heq]
  | cons w values ih =>
    obtain ⟨fuel, rfl⟩ := Nat.exists_eq_succ_of_ne_zero (Nat.ne_of_gt (Nat.zero_lt_of_lt hfuel))
    obtain ⟨v', hv', heq⟩ := hreads v List.mem_cons_self _ (follows_items (w :: values) rest)
    have hnext : ∃ vs, parseItems strategy value fuel (data ++ [v'])
        (dump w ++ (dumpItems false values ++ ']' :: rest)) = .ok (.array (data ++ [v'] ++ vs), rest) ∧
        eqItems vs (w :: values) = true :=
      ih (fun u hu => hreads u (List.mem_cons_of_mem _ hu))
        (fun u hu => hbegins u (List.mem_cons_of_mem _ hu)) (Nat.lt_of_succ_lt_succ hfuel)
    obtain ⟨vs, hvs, heqs⟩ := hnext
    refine ⟨v' :: vs, ?_, ?_⟩
    · rw [parseItems_next fuel (hbegins w List.mem_cons_self) hv', hvs, List.append_assoc]
      rfl
    · rw [eqItems, heq, heqs]
      rfl

theorem parseItems_exceeds_first (hv : Exceeds value v) (fuel : Nat) :
    parseItems strategy value (fuel + 1) data (dump v ++ (dumpItems false values ++ ']' :: rest)) =
      fail "exceeded maximum nesting depth".toList := by
  rw [parseItems, hv _ (follows_items values rest)]
  rfl

/-- One value that is too deep is enough. -/
theorem parseItems_exceeds (hreads : ∀ w ∈ v :: values, Reads value w ∨ Exceeds value w)
    (hexceeds : ∃ w ∈ v :: values, Exceeds value w) (hbegins : ∀ w ∈ values, Begins w)
    {fuel : Nat} (hfuel : values.length < fuel) :
    parseItems strategy value fuel data (dump v ++ (dumpItems false values ++ ']' :: rest)) =
      fail "exceeded maximum nesting depth".toList := by
  induction values generalizing v fuel data with
  | nil =>
    obtain ⟨fuel, rfl⟩ := Nat.exists_eq_succ_of_ne_zero (Nat.ne_of_gt hfuel)
    obtain ⟨w, hw, hexceeds⟩ := hexceeds
    rw [List.mem_singleton.mp hw] at hexceeds
    exact parseItems_exceeds_first hexceeds fuel
  | cons w values ih =>
    obtain ⟨fuel, rfl⟩ := Nat.exists_eq_succ_of_ne_zero (Nat.ne_of_gt (Nat.zero_lt_of_lt hfuel))
    by_cases hv : Exceeds value v
    · exact parseItems_exceeds_first hv fuel
    · obtain ⟨v', hv', -⟩ := (hreads v List.mem_cons_self).resolve_right hv _
        (follows_items (w :: values) rest)
      have hlater : ∃ u ∈ w :: values, Exceeds value u := by
        obtain ⟨u, hu, hexceeds⟩ := hexceeds
        rcases List.mem_cons.mp hu with rfl | hu
        · exact absurd hexceeds hv
        · exact ⟨u, hu, hexceeds⟩
      rw [parseItems_next fuel (hbegins w List.mem_cons_self) hv']
      exact ih (fun u hu => hreads u (List.mem_cons_of_mem _ hu)) hlater
        (fun u hu => hbegins u (List.mem_cons_of_mem _ hu)) (Nat.lt_of_succ_lt_succ hfuel)

end Items

section Members

variable {value : Text → Except Text (Value D × Text)} {data : Members D} {name : Text} {v v' : Value D}
  {values : List (Text × Value D)} {rest : Text}

/-- The text of an object from the name of a member on, past its first quote. -/
def membersText (name : Text) (v : Value D) (values : List (Text × Value D)) (rest : Text) : Text :=
  dumpChars name ++ '\x22' :: ':' :: ' ' :: (dump v ++ (dumpMembers false values ++ '\x7d' :: rest))

/-- What follows a member is no part of a number. -/
theorem follows_members (values : List (Text × Value D)) (rest : Text) :
    Follows (dumpMembers false values ++ '\x7d' :: rest) := by
  cases values with
  | nil => simp [dumpMembers, Follows, cur]
  | cons e values => simp [dumpMembers, separator, Follows, cur]

/-- What the loop does after the value of a member. -/
def afterMember (value : Text → Except Text (Value D × Text)) (strategy : JsonParse) (fuel : Nat)
    (data : Members D) (str : Text) : Except Text (Value D × Text) := do
  let (ch, str) ← getNextToken strategy str
  if ch = '\x7d' then return (.object data.entries, str)
  else if ch ≠ ',' then fail ("expected ',' in object, got ".toList ++ esc ch)
  else
    let (ch, str) ← getNextToken strategy str
    parseMembers strategy value fuel data ch str

/-- The name of a member is read, and its value is next. -/
theorem parseMembers_name (hblank : ∀ str, value (' ' :: str) = value str) (fuel : Nat) :
    parseMembers strategy value (fuel + 1) data '\x22' (membersText name v values rest) =
      value (dump v ++ (dumpMembers false values ++ '\x7d' :: rest)) >>= fun r =>
        afterMember value strategy fuel (data.assign name r.1) r.2 := by
  rw [parseMembers, if_neg (by decide), membersText, parseString_dumpChars, ok_bind]
  dsimp only
  rw [getNextToken_token (by decide), ok_bind]
  dsimp only
  rw [if_neg (by decide), hblank]
  rfl

/-- The last member. -/
theorem parseMembers_last (hblank : ∀ str, value (' ' :: str) = value str) (fuel : Nat)
    (h : value (dump v ++ '\x7d' :: rest) = .ok (v', '\x7d' :: rest)) :
    parseMembers strategy value (fuel + 1) data '\x22' (membersText name v [] rest) =
      .ok (.object (data.assign name v').entries, rest) := by
  have hnil : dumpMembers false ([] : List (Text × Value D)) = [] := rfl
  rw [parseMembers_name hblank, hnil, List.nil_append, h, ok_bind, afterMember]
  dsimp only
  rw [getNextToken_token (by decide), ok_bind]
  rfl

/-- A member with others behind it. -/
theorem parseMembers_next (hblank : ∀ str, value (' ' :: str) = value str) (fuel : Nat) {name' : Text}
    {w : Value D} (h : value (dump v ++ (dumpMembers false ((name', w) :: values) ++ '\x7d' :: rest)) =
      .ok (v', dumpMembers false ((name', w) :: values) ++ '\x7d' :: rest)) :
    parseMembers strategy value (fuel + 1) data '\x22' (membersText name v ((name', w) :: values) rest) =
      parseMembers strategy value fuel (data.assign name v') '\x22' (membersText name' w values rest) := by
  have hmembers : dumpMembers false ((name', w) :: values) ++ '\x7d' :: rest =
      ',' :: ' ' :: ('\x22' :: membersText name' w values rest) := by
    simp [dumpMembers, separator, dumpString, membersText]
  rw [parseMembers_name hblank, h, ok_bind, hmembers, afterMember]
  dsimp only
  rw [getNextToken_token (by decide), ok_bind]
  dsimp only
  rw [if_neg (by decide), if_neg (by decide), getNextToken_blank, getNextToken_token (by decide), ok_bind]

/-- The members of an object are read one by one, each after the others. -/
theorem parseMembers_reads (hblank : ∀ str, value (' ' :: str) = value str)
    (hreads : ∀ e ∈ (name, v) :: values, Reads value e.2)
    (hsorted : ((data.entries ++ (name, v) :: values).map Prod.fst).Pairwise (· < ·))
    {fuel : Nat} (hfuel : values.length < fuel) :
    ∃ vs, parseMembers strategy value fuel data '\x22' (membersText name v values rest) =
      .ok (.object (data.entries ++ vs), rest) ∧ eqMembers vs ((name, v) :: values) = true := by
  induction values generalizing name v fuel data with
  | nil =>
    obtain ⟨fuel, rfl⟩ := Nat.exists_eq_succ_of_ne_zero (Nat.ne_of_gt hfuel)
    obtain ⟨v', hv', heq⟩ := hreads (name, v) List.mem_cons_self ('\x7d' :: rest) (by simp [Follows, cur])
    refine ⟨[(name, v')], ?_, ?_⟩
    · rw [parseMembers_last hblank fuel hv', StdMap.entries_assign_last (lt_of_sorted hsorted)]
    · simp [eqMembers, heq]
  | cons e values ih =>
    obtain ⟨name', w⟩ := e
    obtain ⟨fuel, rfl⟩ := Nat.exists_eq_succ_of_ne_zero (Nat.ne_of_gt (Nat.zero_lt_of_lt hfuel))
    obtain ⟨v', hv', heq⟩ := hreads (name, v) List.mem_cons_self _
      (follows_members ((name', w) :: values) rest)
    have hentries := StdMap.entries_assign_last (lt_of_sorted hsorted) v'
    have hnext : (((data.assign name v').entries ++ (name', w) :: values).map Prod.fst).Pairwise
        (· < ·) := by
      rw [hentries]
      simpa using hsorted
    obtain ⟨vs, hvs, heqs⟩ := ih (fun u hu => hreads u (List.mem_cons_of_mem _ hu)) hnext
      (Nat.lt_of_succ_lt_succ hfuel)
    refine ⟨(name, v') :: vs, ?_, ?_⟩
    · rw [parseMembers_next hblank fuel hv', hvs, hentries, List.append_assoc]
      rfl
    · rw [eqMembers, heq, heqs]
      simp

theorem parseMembers_exceeds_first (hblank : ∀ str, value (' ' :: str) = value str)
    (hv : Exceeds value v) (fuel : Nat) :
    parseMembers strategy value (fuel + 1) data '\x22' (membersText name v values rest) =
      fail "exceeded maximum nesting depth".toList := by
  rw [parseMembers_name hblank, hv _ (follows_members values rest)]
  rfl

/-- A member that is too deep stops the loop. -/
theorem parseMembers_exceeds (hblank : ∀ str, value (' ' :: str) = value str)
    (hreads : ∀ e ∈ (name, v) :: values, Reads value e.2 ∨ Exceeds value e.2)
    (hexceeds : ∃ e ∈ (name, v) :: values, Exceeds value e.2) {fuel : Nat} (hfuel : values.length < fuel) :
    parseMembers strategy value fuel data '\x22' (membersText name v values rest) =
      fail "exceeded maximum nesting depth".toList := by
  induction values generalizing name v fuel data with
  | nil =>
    obtain ⟨fuel, rfl⟩ := Nat.exists_eq_succ_of_ne_zero (Nat.ne_of_gt hfuel)
    obtain ⟨e, he, hexceeds⟩ := hexceeds
    rw [List.mem_singleton.mp he] at hexceeds
    exact parseMembers_exceeds_first hblank hexceeds fuel
  | cons e values ih =>
    obtain ⟨name', w⟩ := e
    obtain ⟨fuel, rfl⟩ := Nat.exists_eq_succ_of_ne_zero (Nat.ne_of_gt (Nat.zero_lt_of_lt hfuel))
    by_cases hv : Exceeds value v
    · exact parseMembers_exceeds_first hblank hv fuel
    · obtain ⟨v', hv', -⟩ := (hreads (name, v) List.mem_cons_self).resolve_right hv _
        (follows_members ((name', w) :: values) rest)
      have hlater : ∃ e ∈ (name', w) :: values, Exceeds value e.2 := by
        obtain ⟨e, he, hexceeds⟩ := hexceeds
        rcases List.mem_cons.mp he with rfl | he
        · exact absurd hexceeds hv
        · exact ⟨e, he, hexceeds⟩
      rw [parseMembers_next hblank fuel hv']
      exact ih (fun e he => hreads e (List.mem_cons_of_mem _ he)) hlater (Nat.lt_of_succ_lt_succ hfuel)

end Members

/-! ### The whole parser -/

/-- A blank in front makes no difference. -/
theorem parseJson_blank (levels : Nat) (str : Text) :
    parseJson strategy levels (' ' :: str) = (parseJson strategy levels str : Except Text (Value D × Text)) := by
  cases levels with
  | zero => rfl
  | succ levels => rw [parseJson, parseJson, getNextToken_blank]

theorem parseJson_array (levels : Nat) (str : Text) :
    (parseJson strategy (levels + 1) ('[' :: str) : Except Text (Value D × Text)) =
      getNextToken strategy str >>= fun r =>
        if r.1 = ']' then return (.array [], r.2)
        else parseItems strategy (parseJson strategy levels) (r.2.length + 1) [] (r.1 :: r.2) := by
  rw [parseJson, getNextToken_token (by decide), ok_bind]
  rfl

theorem parseJson_object (levels : Nat) (str : Text) :
    (parseJson strategy (levels + 1) ('\x7b' :: str) : Except Text (Value D × Text)) =
      getNextToken strategy str >>= fun r =>
        if r.1 = '\x7d' then return (.object [], r.2)
        else parseMembers strategy (parseJson strategy levels) (r.2.length + 1) .empty r.1 r.2 := by
  rw [parseJson, getNextToken_token (by decide), ok_bind]
  rfl

/-- There is fuel enough for the values. -/
theorem length_dumpItems (values : List (Value D)) : values.length ≤ (dumpItems false values).length := by
  induction values with
  | nil => exact Nat.le_refl _
  | cons v values ih =>
    simp only [dumpItems, separator, List.length_append, List.length_cons]
    have hsep : (if false = true then [] else ", ".toList).length = 2 := rfl
    omega

theorem length_dumpMembers (values : List (Text × Value D)) :
    values.length ≤ (dumpMembers false values).length := by
  induction values with
  | nil => exact Nat.le_refl _
  | cons e values ih =>
    simp only [dumpMembers, separator, List.length_append, List.length_cons]
    have hsep : (if false = true then [] else ", ".toList).length = 2 := rfl
    omega

/-- The text of an array that is not empty, up to the first of its values. -/
theorem parseJson_items (strategy : JsonParse) (levels : Nat) {v : Value D} (hv : Begins v)
    (values : List (Value D)) (rest : Text) : ∃ fuel, values.length < fuel ∧
      (parseJson strategy (levels + 1) (dump (Value.array (v :: values)) ++ rest) :
          Except Text (Value D × Text)) =
        parseItems strategy (parseJson strategy levels) fuel []
          (dump v ++ (dumpItems false values ++ ']' :: rest)) := by
  obtain ⟨ch, t, hdump, htoken, hend⟩ := hv
  have htext : dump (Value.array (v :: values)) ++ rest =
      '[' :: ch :: (t ++ (dumpItems false values ++ ']' :: rest)) := by
    simp [dump, dumpItems, separator, hdump]
  refine ⟨(t ++ (dumpItems false values ++ ']' :: rest)).length + 1, ?_, ?_⟩
  · have := length_dumpItems values
    simp only [List.length_append]
    omega
  · rw [htext, parseJson_array, getNextToken_token htoken, ok_bind, if_neg hend, hdump]
    rfl

/-- The text of an object that is not empty, up to the first of its names. -/
theorem parseJson_members (strategy : JsonParse) (levels : Nat) (name : Text) (v : Value D)
    (values : List (Text × Value D)) (rest : Text) : ∃ fuel, values.length < fuel ∧
      (parseJson strategy (levels + 1) (dump (Value.object ((name, v) :: values)) ++ rest) :
          Except Text (Value D × Text)) =
        parseMembers strategy (parseJson strategy levels) fuel .empty '\x22'
          (membersText name v values rest) := by
  have htext : dump (Value.object ((name, v) :: values)) ++ rest =
      '\x7b' :: '\x22' :: membersText name v values rest := by
    simp [dump, dumpMembers, separator, dumpString, membersText]
  refine ⟨(membersText name v values rest).length + 1, ?_, ?_⟩
  · have := length_dumpMembers values
    simp only [membersText, List.length_append, List.length_cons]
    omega
  · rw [htext, parseJson_object, getNextToken_token (by decide), ok_bind]
    rfl

/-- A value that is read to its end is the result of `parse`. -/
theorem parse_of_reads {v : Value D} (h : Reads (parseJson strategy (max_depth + 1)) v) :
    ∃ v', parse strategy (dump v) = (v', []) ∧ eq v' v = true := by
  obtain ⟨v', hread, heq⟩ := h [] (by simp [Follows, cur])
  refine ⟨v', ?_, heq⟩
  rw [List.append_nil] at hread
  rw [parse, hread]
  cases strategy <;> rfl

section Lawful

variable [LawfulDoubles D]

theorem isToken_of_number {ch : Char} (h : ch = '-' ∨ ch.isDigit = true) : IsToken ch ∧ ch ≠ ']' := by
  rcases h with rfl | h
  · decide
  · constructor
    · intro hmem
      simp only [List.mem_cons, List.not_mem_nil, or_false] at hmem
      rcases hmem with rfl | rfl | rfl | rfl | rfl <;> cases h
    · rintro rfl
      cases h

/-- A number is written as the text of a number, which is read as the same number. -/
theorem dump_number {v : Value D} (hv : isNumber v = true) (hfinite : Finite v) :
    ∃ n : NumberText, dump v = n.text ∧ eq n.value v = true := by
  cases v with
  | int value =>
    refine ⟨intText value.toInt, (intText_text _).symm, NumberText.eq_value rfl ?_⟩
    rw [intText_text]
    exact strtod_dumpInt value
  | double value =>
    obtain ⟨n, hn⟩ := LawfulDoubles.print_text value hfinite
    refine ⟨n, ?_, NumberText.eq_value rfl ?_⟩
    · rw [dump, dumpDouble, hn]
      exact if_pos hfinite
    · rw [← hn]
      exact LawfulDoubles.strtod_print value hfinite
  | _ => cases hv

/-- A text of a finite value begins with no blank and no bracket that closes. -/
theorem begins_of_finite {v : Value D} (h : Finite v) : Begins v := by
  by_cases hv : isNumber v = true
  · obtain ⟨n, hn, -⟩ := dump_number hv h
    obtain ⟨ch, t, htext, hch⟩ := n.text_cons
    exact ⟨ch, t, hn.trans htext, isToken_of_number hch⟩
  · cases v with
    | null => exact ⟨'n', _, rfl, by decide⟩
    | int value => exact absurd rfl hv
    | double value => exact absurd rfl hv
    | bool value => cases value <;> exact ⟨_, _, rfl, by decide⟩
    | string value => exact ⟨'\x22', _, rfl, by decide⟩
    | array values => exact ⟨'[', _, rfl, by decide⟩
    | object values => exact ⟨'\x7b', _, rfl, by decide⟩

/-- A number is read as it was written. -/
theorem reads_number (levels : Nat) {v : Value D} (hv : isNumber v = true) (hfinite : Finite v) :
    Reads (parseJson strategy (levels + 1)) v := by
  intro rest hrest
  obtain ⟨n, hn, heq⟩ := dump_number hv hfinite
  obtain ⟨ch, t, htext, hch⟩ := n.text_cons
  refine ⟨n.value, ?_, heq⟩
  have hread := n.parseNumber_text (D := D) hrest
  rw [htext] at hread
  rw [hn, htext, List.cons_append, parseJson, getNextToken_token (isToken_of_number hch).1, ok_bind]
  dsimp only
  rw [if_pos hch]
  exact hread

/-- A value is read as it was written, if it is not nested too deep. -/
theorem reads_of_nesting_lt {levels : Nat} {v : Value D} (hfinite : Everywhere Finite v)
    (hsorted : Everywhere Sorted v) (h : nesting v < levels) : Reads (parseJson strategy levels) v := by
  induction levels generalizing v with
  | zero => exact absurd h (Nat.not_lt_zero _)
  | succ levels ih =>
    cases v with
    | null =>
      intro rest _
      refine ⟨.null, ?_, rfl⟩
      show parseJson strategy (levels + 1) ('n' :: 'u' :: 'l' :: 'l' :: rest) = _
      rw [parseJson, getNextToken_token (by decide), ok_bind]
      rfl
    | int value => exact reads_number levels rfl trivial
    | double value => exact reads_number levels rfl hfinite
    | bool value =>
      intro rest _
      refine ⟨.bool value, ?_, by simp [eq]⟩
      cases value with
      | true =>
        show parseJson strategy (levels + 1) ('t' :: 'r' :: 'u' :: 'e' :: rest) = _
        rw [parseJson, getNextToken_token (by decide), ok_bind]
        rfl
      | false =>
        show parseJson strategy (levels + 1) ('f' :: 'a' :: 'l' :: 's' :: 'e' :: rest) = _
        rw [parseJson, getNextToken_token (by decide), ok_bind]
        rfl
    | string value =>
      intro rest _
      refine ⟨.string value, ?_, by simp [eq]⟩
      have htext : dump (.string value : Value D) ++ rest = '\x22' :: (dumpChars value ++ '\x22' :: rest) := by
        simp [dump, dumpString]
      rw [htext, parseJson, getNextToken_token (by decide), ok_bind]
      show parseString _ >>= _ = _
      rw [parseString_dumpChars, ok_bind]
      rfl
    | array values =>
      intro rest _
      cases values with
      | nil =>
        refine ⟨.array [], ?_, rfl⟩
        show parseJson strategy (levels + 1) ('[' :: ']' :: rest) = _
        rw [parseJson_array, getNextToken_token (by decide), ok_bind]
        rfl
      | cons v values =>
        have hfinite' := (everywhereItems_iff Finite).mp hfinite.2
        have hsorted' := (everywhereItems_iff Sorted).mp hsorted.2
        have hdeep := nestingItems_le_iff.mp (Nat.le_of_lt_succ h)
        have hbegins : ∀ w ∈ v :: values, Begins w :=
          fun w hw => begins_of_finite (everywhere_self Finite (hfinite' w hw))
        obtain ⟨fuel, hfuel, hparse⟩ := parseJson_items strategy levels
          (hbegins v List.mem_cons_self) values rest
        have hitems : ∃ vs, parseItems strategy (parseJson strategy levels) fuel []
            (dump v ++ (dumpItems false values ++ ']' :: rest)) = .ok (.array ([] ++ vs), rest) ∧
            eqItems vs (v :: values) = true :=
          parseItems_reads (fun w hw => ih (hfinite' w hw) (hsorted' w hw) (hdeep w hw))
            (fun w hw => hbegins w (List.mem_cons_of_mem _ hw)) hfuel
        obtain ⟨vs, hvs, heq⟩ := hitems
        refine ⟨.array vs, ?_, ?_⟩
        · rw [hparse, hvs]
          rfl
        · rw [eq]
          exact heq
    | object values =>
      intro rest _
      cases values with
      | nil =>
        refine ⟨.object [], ?_, rfl⟩
        show parseJson strategy (levels + 1) ('\x7b' :: '\x7d' :: rest) = _
        rw [parseJson_object, getNextToken_token (by decide), ok_bind]
        rfl
      | cons e values =>
        obtain ⟨name, v⟩ := e
        have hfinite' := (everywhereMembers_iff Finite).mp hfinite.2
        have hsorted' := (everywhereMembers_iff Sorted).mp hsorted.2
        have hdeep := nestingMembers_le_iff.mp (Nat.le_of_lt_succ h)
        obtain ⟨fuel, hfuel, hparse⟩ := parseJson_members strategy levels name v values rest
        have hnames : (((.empty : Members D).entries ++ (name, v) :: values).map Prod.fst).Pairwise
          (· < ·) := hsorted.1
        have hmembers : ∃ vs, parseMembers strategy (parseJson strategy levels) fuel .empty '\x22'
            (membersText name v values rest) = .ok (.object ((.empty : Members D).entries ++ vs), rest) ∧
            eqMembers vs ((name, v) :: values) = true :=
          parseMembers_reads (parseJson_blank levels)
            (fun e he => ih (hfinite' e he) (hsorted' e he) (hdeep e he)) hnames hfuel
        obtain ⟨vs, hvs, heq⟩ := hmembers
        refine ⟨.object vs, ?_, ?_⟩
        · rw [hparse, hvs]
          rfl
        · rw [eq]
          exact heq

/-- A value that is nested too deep is refused. -/
theorem exceeds_of_le_nesting {levels : Nat} {v : Value D} (hfinite : Everywhere Finite v)
    (hsorted : Everywhere Sorted v) (h : levels ≤ nesting v) : Exceeds (parseJson strategy levels) v := by
  induction levels generalizing v with
  | zero =>
    intro rest _
    rfl
  | succ levels ih =>
    -- what is in the value is read or too deep
    have hinner : ∀ {w : Value D}, Everywhere Finite w → Everywhere Sorted w →
        Reads (parseJson strategy levels) w ∨ Exceeds (parseJson strategy levels) w := by
      intro w hf hs
      rcases Nat.lt_or_ge (nesting w) levels with hlt | hle
      · exact .inl (reads_of_nesting_lt hf hs hlt)
      · exact .inr (ih hf hs hle)
    cases v with
    | array values =>
      intro rest _
      have hfinite' := (everywhereItems_iff Finite).mp hfinite.2
      have hsorted' := (everywhereItems_iff Sorted).mp hsorted.2
      have hdeep : ∃ w ∈ values, levels ≤ nesting w := by
        by_contra hnot
        refine absurd h (Nat.not_le_of_lt (Nat.lt_succ_of_le (nestingItems_le_iff.mpr ?_)))
        intro w hw
        exact Nat.lt_of_not_le fun hle => hnot ⟨w, hw, hle⟩
      obtain ⟨w, hw, hle⟩ := hdeep
      cases values with
      | nil => cases hw
      | cons v values =>
        have hbegins : ∀ w ∈ v :: values, Begins w :=
          fun w hw => begins_of_finite (everywhere_self Finite (hfinite' w hw))
        obtain ⟨fuel, hfuel, hparse⟩ := parseJson_items strategy levels
          (hbegins v List.mem_cons_self) values rest
        rw [hparse]
        exact parseItems_exceeds (fun w hw => hinner (hfinite' w hw) (hsorted' w hw))
          ⟨w, hw, ih (hfinite' w hw) (hsorted' w hw) hle⟩
          (fun w hw => hbegins w (List.mem_cons_of_mem _ hw)) hfuel
    | object values =>
      intro rest _
      have hfinite' := (everywhereMembers_iff Finite).mp hfinite.2
      have hsorted' := (everywhereMembers_iff Sorted).mp hsorted.2
      have hdeep : ∃ e ∈ values, levels ≤ nesting e.2 := by
        by_contra hnot
        refine absurd h (Nat.not_le_of_lt (Nat.lt_succ_of_le (nestingMembers_le_iff.mpr ?_)))
        intro e he
        exact Nat.lt_of_not_le fun hle => hnot ⟨e, he, hle⟩
      obtain ⟨e, he, hle⟩ := hdeep
      cases values with
      | nil => cases he
      | cons e' values =>
        obtain ⟨fuel, hfuel, hparse⟩ := parseJson_members strategy levels e'.1 e'.2 values rest
        rw [hparse]
        exact parseMembers_exceeds (parseJson_blank levels)
          (fun e he => hinner (hfinite' e he) (hsorted' e he))
          ⟨e, he, ih (hfinite' e he) (hsorted' e he) hle⟩ hfuel
    | _ => exact absurd h (Nat.not_succ_le_zero _)

/-- What `dump` writes is read by `parse` as an equal value, unless values are nested deeper in it than
    `max_depth`; then it is refused. -/
theorem parse_dump (strategy : JsonParse) (v : Ordered D) (hfinite : Everywhere Finite v.value) :
    (nesting v.value ≤ max_depth →
        ∃ v', parse strategy (dump v.value) = (v', []) ∧ eq v' v.value = true) ∧
      (max_depth < nesting v.value →
        parse strategy (dump v.value) = ((.null : Value D), "exceeded maximum nesting depth".toList)) := by
  constructor
  · intro h
    exact parse_of_reads (reads_of_nesting_lt hfinite v.sorted (Nat.lt_succ_of_le h))
  · intro h
    have hexceeds : Exceeds (parseJson strategy (max_depth + 1)) v.value :=
      exceeds_of_le_nesting hfinite v.sorted (Nat.succ_le_of_lt h)
    have hfail := hexceeds [] (by simp [Follows, cur])
    rw [List.append_nil] at hfail
    rw [parse, hfail]
    rfl

/-- The `double`s that are whole numbers. -/
structure WholeDouble where
  value : Int

instance : Doubles WholeDouble where
  isfinite _ := true
  print d := dumpInt d.value
  strtod str := ⟨intOf str⟩
  ofInt n := ⟨n.toInt⟩
  toInt d := Int32.ofInt d.value
  eq d d' := d.value == d'.value

instance : LawfulDoubles WholeDouble where
  print_text d _ := ⟨intText d.value, (intText_text d.value).symm⟩
  strtod_print d _ := by
    show (intOf (dumpInt d.value) == d.value) = true
    rw [intOf_dumpInt]
    exact beq_self_eq_true _
  strtod_whole n _ hlo hhi := by
    show (intOf n.text == (Int32.ofInt (intOf n.text)).toInt) = true
    rw [Int32.toInt_ofInt_of_le hlo hhi]
    exact beq_self_eq_true _
  toInt_of_eq d n h := by
    have hvalue : d.value = n.toInt := beq_iff_eq.mp h
    show Int32.ofInt d.value = n
    rw [hvalue, Int32.ofInt_toInt]
  eq_symm d d' h := beq_iff_eq.mpr (beq_iff_eq.mp h).symm
  eq_trans d d' d'' h h' := beq_iff_eq.mpr ((beq_iff_eq.mp h).trans (beq_iff_eq.mp h'))

/-- Two levels, a control character, an `int` that is too long to be read as one, and a `double` that is
    read as an `int`. -/
def sampleValue : Ordered WholeDouble where
  value := .object [("a\n".toList, .array [.int 2147483647, .bool true, .null]), ("b".toList, .double ⟨-3⟩)]
  sorted := by
    refine ⟨?_, ⟨trivial, trivial, trivial, trivial, trivial⟩, trivial, trivial⟩
    show List.Pairwise (· < ·) ["a\n".toList, "b".toList]
    decide

/-- It is read back, with its `double` as an `int`. -/
theorem parse_dump_sampleValue :
    dump sampleValue.value = "\x7b\"a\\n\": [2147483647, true, null], \"b\": -3\x7d".toList ∧
      ∃ v', parse .standard (dump sampleValue.value) = (v', []) ∧ eq v' sampleValue.value = true := by
  have hfinite : Everywhere Finite sampleValue.value :=
    ⟨trivial, ⟨trivial, trivial, trivial, trivial, trivial⟩, rfl, trivial⟩
  exact ⟨rfl, (parse_dump .standard sampleValue hfinite).1 (by decide)⟩

end Lawful

end Json11

end Rsock
