import Rsock.PortCache
import Rsock.Proofs.RConfigProofs

/-!
# Proofs: port lists as objects

Which texts `FromString` reads as they are documented, when the text of a list is read back, and when
the list of all ports that the getters return is the current one.
-/

namespace Rsock

open CMem TransSys

namespace RPortList

/-! ## What `FromString` finds in a text -/

/-- What is found: a number, or two with a dash between them. -/
inductive Item where
  | port (n : Nat)
  | range (first last : Nat)
  deriving DecidableEq

namespace Item

/-- `std::stoi` can read the numbers. -/
def Small : Item → Prop
  | port n => n < 2 ^ 31
  | range first last => first < 2 ^ 31 ∧ last < 2 ^ 31

/-- A range in a wrong format. -/
def Backward : Item → Prop
  | port _ => False
  | range first last => last ≤ first ∨ first = 0

end Item

/-- The number the digits stand for. -/
def numberOf (digits : List Char) : Nat := Nat.ofDigitChars 10 digits 0

/-- All that is found, one after the other. -/
def findAll : (fuel : Nat) → (str : List Char) → List Item
  | 0, _ => []
  | fuel + 1, str =>
    match regexSearch str with
    | none => []
    | some (.single digits suffix) => .port (numberOf digits) :: findAll fuel suffix
    | some (.range first last suffix) =>
      .range (numberOf first) (numberOf last) :: findAll fuel suffix

/-- The items found in a list of ports. -/
def itemsOf (s : String) : List Item := findAll s.toList.length s.toList

def portsOf : List Item → List Nat
  | [] => []
  | .port n :: is => n :: portsOf is
  | .range _ _ :: is => portsOf is

def rangesOf : List Item → List (Nat × Nat)
  | [] => []
  | .port _ :: is => rangesOf is
  | .range first last :: is => (first, last) :: rangesOf is

/-- The list with some ports and ranges more, cut to 16 bits. -/
def push (list : RPortList) (is : List Item) : RPortList where
  mSingleOnes := list.mSingleOnes ++ (portsOf is).map UInt16.ofNat
  mValentines := list.mValentines ++
    (rangesOf is).map fun r => ⟨UInt16.ofNat r.1, UInt16.ofNat r.2⟩

/-- A range in a wrong format is found before a number that `std::stoi` cannot read. -/
def Rejected : List Item → Prop
  | [] => False
  | i :: is => i.Small ∧ (i.Backward ∨ Rejected is)

theorem stoi_of_lt {digits : List Char} (h : numberOf digits < 2 ^ 31) :
    stoi digits = .ok (numberOf digits) := if_pos h

theorem stoi_of_not_lt {digits : List Char} (h : ¬ numberOf digits < 2 ^ 31) :
    stoi digits = .error .outOfRange := if_neg h

/-- One round: a number that cannot be read ends the loop, as a range in a wrong format does, and
    otherwise the item is added to the list. -/
theorem parseLoop_succ {fuel : Nat} {str : List Char} {i : Item} {is : List Item}
    (h : findAll (fuel + 1) str = i :: is) (list : RPortList) :
    ∃ suffix, is = findAll fuel suffix ∧
      (¬ i.Small → parseLoop (fuel + 1) str list = (list, .error .outOfRange)) ∧
      (i.Small → i.Backward → parseLoop (fuel + 1) str list = ({}, .ok false)) ∧
      (i.Small → ¬ i.Backward →
        parseLoop (fuel + 1) str list = parseLoop fuel suffix (list.push [i])) := by
  rw [findAll] at h
  cases hm : regexSearch str with
  | none =>
    rw [hm] at h
    cases h
  | some m =>
    rw [hm] at h
    rw [parseLoop, hm]
    cases m with
    | single digits suffix =>
      obtain ⟨rfl, rfl⟩ := List.cons.inj h
      refine ⟨suffix, rfl, fun hbig => ?_, fun _ hback => hback.elim, fun hsmall _ => ?_⟩
      · simp only [stoi_of_not_lt hbig]
      · simp only [stoi_of_lt hsmall]
        simp [push, portsOf, rangesOf]
    | range first last suffix =>
      obtain ⟨rfl, rfl⟩ := List.cons.inj h
      refine ⟨suffix, rfl, fun hbig => ?_, fun hsmall hback => ?_, fun hsmall hforw => ?_⟩
      · by_cases hfirst : numberOf first < 2 ^ 31
        · have hlast : ¬ numberOf last < 2 ^ 31 := fun h => hbig ⟨hfirst, h⟩
          simp only [stoi_of_lt hfirst, stoi_of_not_lt hlast]
        · simp only [stoi_of_not_lt hfirst]
      · simp only [stoi_of_lt hsmall.1, stoi_of_lt hsmall.2]
        rw [if_pos (hback.elim .inl fun h => .inr (.inl h))]
      · have hpos : ¬ (numberOf first ≥ numberOf last ∨ numberOf first = 0 ∨ numberOf last = 0) := by
          have : ¬ (numberOf last ≤ numberOf first ∨ numberOf first = 0) := hforw
          omega
        simp only [stoi_of_lt hsmall.1, stoi_of_lt hsmall.2]
        rw [if_neg hpos]
        simp [push, portsOf, rangesOf]

theorem parseLoop_nil {fuel : Nat} {str : List Char} (h : findAll fuel str = []) (list : RPortList) :
    parseLoop fuel str list = (list, .ok true) := by
  cases fuel with
  | zero => rfl
  | succ fuel =>
    rw [findAll] at h
    rw [parseLoop]
    cases hm : regexSearch str with
    | none => rfl
    | some m =>
      rw [hm] at h
      cases m <;> cases h

theorem push_cons (list : RPortList) (i : Item) (is : List Item) :
    (list.push [i]).push is = list.push (i :: is) := by
  cases i with
  | port n => simp [push, portsOf, rangesOf]
  | range first last => simp [push, portsOf, rangesOf]

theorem parseLoop_taken {fuel : Nat} {str : List Char} {is : List Item} (h : findAll fuel str = is)
    (hok : ∀ i ∈ is, i.Small ∧ ¬ i.Backward) (list : RPortList) :
    parseLoop fuel str list = (list.push is, .ok true) := by
  induction is generalizing fuel str list with
  | nil =>
    rw [parseLoop_nil h]
    simp [push, portsOf, rangesOf]
  | cons i is ih =>
    obtain ⟨hsmall, hforw⟩ := hok i List.mem_cons_self
    cases fuel with
    | zero => cases h
    | succ fuel =>
      obtain ⟨suffix, his, -, -, hstep⟩ := parseLoop_succ h list
      rw [hstep hsmall hforw, ih his.symm (fun i hi => hok i (List.mem_cons_of_mem _ hi)), push_cons]

theorem parseLoop_rejected {fuel : Nat} {str : List Char} {is : List Item} (h : findAll fuel str = is)
    (hrej : Rejected is) (list : RPortList) : parseLoop fuel str list = ({}, .ok false) := by
  induction is generalizing fuel str list with
  | nil => exact hrej.elim
  | cons i is ih =>
    cases fuel with
    | zero => cases h
    | succ fuel =>
      obtain ⟨hsmall, hrest⟩ := hrej
      obtain ⟨suffix, his, -, hfalse, hstep⟩ := parseLoop_succ h list
      by_cases hback : i.Backward
      · exact hfalse hsmall hback
      · rw [hstep hsmall hback]
        exact ih his.symm (hrest.resolve_left hback) _

theorem parseLoop_throws {fuel : Nat} {str : List Char} {is : List Item} (h : findAll fuel str = is)
    (hok : ¬ ∀ i ∈ is, i.Small ∧ ¬ i.Backward) (hrej : ¬ Rejected is) (list : RPortList) :
    (parseLoop fuel str list).2 = .error .outOfRange := by
  induction is generalizing fuel str list with
  | nil => exact absurd (fun i hi => by cases hi) hok
  | cons i is ih =>
    cases fuel with
    | zero => cases h
    | succ fuel =>
      obtain ⟨suffix, his, hthrow, -, hstep⟩ := parseLoop_succ h list
      by_cases hsmall : i.Small
      · have hforw : ¬ i.Backward := fun hback => hrej ⟨hsmall, .inl hback⟩
        rw [hstep hsmall hforw]
        refine ih his.symm (fun hall => hok ?_) (fun hrest => hrej ⟨hsmall, .inr hrest⟩) _
        intro j hj
        rcases List.mem_cons.mp hj with rfl | hj
        · exact ⟨hsmall, hforw⟩
        · exact hall j hj
      · rw [hthrow hsmall]

/-! ## The documented texts -/

/-- The text is a number, written with digits only. -/
def IsNumber (t : List Char) (n : Nat) : Prop := IsDigits t ∧ numberOf t = n

namespace Item

/-- The text is a number, or two with a dash between them. -/
def Text : Item → List Char → Prop
  | port n, t => IsNumber t n
  | range first last, t => ∃ a b, t = a ++ '-' :: b ∧ IsNumber a first ∧ IsNumber b last

/-- The ports are possible ones, and a range is in order. -/
def Ok : Item → Prop
  | port n => 1 ≤ n ∧ n ≤ 65535
  | range first last => 1 ≤ first ∧ first < last ∧ last ≤ 65535

theorem Ok.taken {i : Item} (h : i.Ok) : i.Small ∧ ¬ i.Backward := by
  cases i with
  | port n =>
    obtain ⟨-, hle⟩ := h
    exact ⟨show n < 2 ^ 31 by omega, not_false⟩
  | range first last =>
    obtain ⟨hpos, hlt, hle⟩ := h
    refine ⟨⟨by omega, by omega⟩, ?_⟩
    show ¬ (last ≤ first ∨ first = 0)
    omega

end Item

def blanks (k : Nat) : List Char := List.replicate k ' '

/-- The text is that of the items, with commas between them and blanks around them. -/
inductive Listed : List Item → List Char → Prop
  | last {i : Item} {t : List Char} (k l : Nat) (h : i.Text t) :
    Listed [i] (blanks k ++ (t ++ blanks l))
  | cons {i : Item} {t : List Char} {is : List Item} {rest : List Char} (k l : Nat) (h : i.Text t)
    (hrest : Listed is rest) : Listed (i :: is) (blanks k ++ (t ++ (blanks l ++ ',' :: rest)))

/-- A text in the documented format, and its items. -/
def Documented (s : String) (is : List Item) : Prop := Listed is s.toList ∧ ∀ i ∈ is, i.Ok

theorem findAll_skip (fuel : Nat) {c : Char} (hc : c.isDigit = false) (l : List Char) :
    findAll fuel (c :: l) = findAll fuel l := by
  cases fuel with
  | zero => rfl
  | succ fuel => rw [findAll, findAll, regexSearch_skip hc]

theorem findAll_blanks (fuel k : Nat) (l : List Char) : findAll fuel (blanks k ++ l) = findAll fuel l := by
  induction k with
  | zero => rfl
  | succ k ih =>
    rw [blanks, List.replicate_succ, List.cons_append, findAll_skip fuel (by decide)]
    exact ih

theorem findAll_nil (fuel : Nat) : findAll fuel [] = [] := by
  cases fuel <;> rfl

/-- What follows an item: nothing, a blank or a comma. -/
def Ends (rest : List Char) : Prop := ∀ c ∈ rest.head?, c = ' ' ∨ c = ','

theorem Ends.noDigit {rest : List Char} (h : Ends rest) : NoDigit rest := by
  intro c hc
  rcases h c hc with rfl | rfl
  · decide
  · decide

theorem Ends.ne_dash {rest : List Char} (h : Ends rest) (l : List Char) : rest ≠ '-' :: l := by
  rintro rfl
  have hdash := h '-' rfl
  revert hdash
  decide

theorem ends_blanks {rest : List Char} (k : Nat) (h : Ends rest) : Ends (blanks k ++ rest) := by
  cases k with
  | zero => exact h
  | succ k =>
    intro c hc
    exact .inl (Option.some.inj hc).symm

theorem findAll_item {i : Item} {t rest : List Char} (ht : i.Text t) (hrest : Ends rest) (fuel : Nat) :
    findAll (fuel + 1) (t ++ rest) = i :: findAll fuel rest := by
  cases i with
  | port n =>
    obtain ⟨hds, rfl⟩ := ht
    rw [findAll, regexSearch_single hds hrest.noDigit hrest.ne_dash]
  | range first last =>
    obtain ⟨a, b, rfl, ⟨ha, rfl⟩, hb, rfl⟩ := ht
    rw [List.append_assoc, List.cons_append, findAll, regexSearch_range ha hb hrest.noDigit]

/-- In such a text its items are found. -/
theorem findAll_of_listed {is : List Item} {l : List Char} (h : Listed is l) {fuel : Nat}
    (hfuel : is.length ≤ fuel) : findAll fuel l = is := by
  induction h generalizing fuel with
  | last k l ht =>
    obtain ⟨fuel, rfl⟩ := Nat.exists_eq_add_of_le' hfuel
    have hend : Ends (blanks l) := by
      have hnil : Ends [] := fun c hc => by cases hc
      simpa using ends_blanks l hnil
    have hrest : findAll fuel (blanks l) = [] := by
      rw [← List.append_nil (blanks l), findAll_blanks, findAll_nil]
    rw [findAll_blanks, List.length_singleton, findAll_item ht hend, hrest]
  | @cons i t is rest k l ht _ ih =>
    rw [List.length_cons] at hfuel
    obtain ⟨fuel, rfl⟩ : ∃ m, fuel = m + 1 := Nat.exists_eq_add_one.mpr (by omega)
    have hcomma : Ends (',' :: rest) := fun c hc => .inr (Option.some.inj hc).symm
    rw [findAll_blanks, findAll_item ht (ends_blanks l hcomma), findAll_blanks,
      findAll_skip fuel (by decide), ih (by omega)]

theorem Item.Text.length_pos {i : Item} {t : List Char} (h : i.Text t) : 0 < t.length := by
  cases i with
  | port n => exact List.length_pos_iff.mpr h.1.1
  | range first last =>
    obtain ⟨a, b, rfl, -⟩ := h
    rw [List.length_append, List.length_cons]
    omega

theorem Listed.length_le {is : List Item} {l : List Char} (h : Listed is l) : is.length ≤ l.length := by
  induction h with
  | last k l ht =>
    have hpos := ht.length_pos
    simp only [List.length_append, List.length_singleton]
    omega
  | cons k l ht _ ih =>
    have hpos := ht.length_pos
    simp only [List.length_append, List.length_cons]
    omega

theorem Listed.ne_nil {is : List Item} {l : List Char} (h : Listed is l) : is ≠ [] := by
  cases h <;> exact List.cons_ne_nil _ _

theorem itemsOf_of_documented {s : String} {is : List Item} (h : Documented s is) : itemsOf s = is :=
  findAll_of_listed h.1 h.1.length_le

theorem allowed_digits {t : List Char} (h : IsDigits t) : t.all allowed = true := by
  rw [List.all_eq_true]
  intro c hc
  simp [allowed, h.2 c hc]

theorem allowed_blanks (k : Nat) : (blanks k).all allowed = true := by
  rw [List.all_eq_true]
  intro c hc
  rw [List.eq_of_mem_replicate hc]
  decide

theorem Item.Text.allowed {i : Item} {t : List Char} (h : i.Text t) : t.all allowed = true := by
  cases i with
  | port n => exact allowed_digits h.1
  | range first last =>
    obtain ⟨a, b, rfl, ha, hb⟩ := h
    rw [List.all_append, List.all_cons, allowed_digits ha.1, allowed_digits hb.1]
    rfl

theorem Listed.allowed {is : List Item} {l : List Char} (h : Listed is l) : l.all allowed = true := by
  induction h with
  | last k l ht => rw [List.all_append, List.all_append, allowed_blanks, allowed_blanks, ht.allowed]; rfl
  | cons k l ht _ ih =>
    rw [List.all_append, List.all_append, List.all_append, List.all_cons, allowed_blanks, allowed_blanks,
      ht.allowed, ih]
    rfl

theorem toNat_port {n : Nat} (h : n ≤ 65535) : (UInt16.ofNat n).toNat = n :=
  UInt16.toNat_ofNat_of_lt' (show n < 65536 by omega)

/-- Possible ports are not changed when they are cut to 16 bits. -/
theorem portsOf_narrow {is : List Item} (h : ∀ i ∈ is, i.Ok) :
    ((portsOf is).map UInt16.ofNat).map UInt16.toNat = portsOf is ∧
      ((rangesOf is).map fun r => PortPair.mk (UInt16.ofNat r.1) (UInt16.ofNat r.2)).map
        (fun p => (p.source.toNat, p.dest.toNat)) = rangesOf is := by
  induction is with
  | nil => exact ⟨rfl, rfl⟩
  | cons i is ih =>
    obtain ⟨hports, hranges⟩ := ih fun j hj => h j (List.mem_cons_of_mem _ hj)
    have hi := h i List.mem_cons_self
    cases i with
    | port n =>
      refine ⟨?_, hranges⟩
      rw [portsOf, List.map_cons, List.map_cons, hports, toNat_port hi.2]
    | range first last =>
      obtain ⟨-, hlt, hle⟩ := hi
      refine ⟨hports, ?_⟩
      rw [rangesOf, List.map_cons, List.map_cons, hranges, toNat_port hle, toNat_port (by omega)]

end RPortList

namespace CachedPortList

open RPortList

section FromString

variable {c : CachedPortList} {s : String}

theorem fromString_not_allowed (h : s.toList.all allowed = false) :
    c.fromString s = ({ c with toRPortList := {} }, .ok false) :=
  if_neg (show ¬ s.toList.all allowed = true by simp [h])

theorem fromString_allowed (h : s.toList.all allowed = true) :
    c.fromString s = ({ c with toRPortList := (parseLoop s.toList.length s.toList {}).1 },
      (parseLoop s.toList.length s.toList {}).2) :=
  if_pos h

theorem fromString_rejected (hrej : Rejected (itemsOf s)) :
    c.fromString s = ({ c with toRPortList := {} }, .ok false) := by
  by_cases h : s.toList.all allowed = true
  · rw [fromString_allowed h, parseLoop_rejected rfl hrej]
  · exact fromString_not_allowed (by simpa using h)

theorem fromString_taken (h : s.toList.all allowed = true)
    (hok : ∀ i ∈ itemsOf s, i.Small ∧ ¬ i.Backward) :
    c.fromString s = ({ c with toRPortList := push {} (itemsOf s) }, .ok true) := by
  rw [fromString_allowed h, parseLoop_taken rfl hok]
  rfl

/-- `FromString` does not throw, it accepts the documented texts and no others, and it stores their items
    or nothing. -/
def ReadsDocumented (c : CachedPortList) (s : String) : Prop :=
  ∃ list b, c.fromString s = (list, .ok b) ∧ (b = true ↔ ∃ is, Documented s is) ∧
    (b = true → ∃ is, Documented s is ∧ list.mSingleOnes.map UInt16.toNat = portsOf is ∧
      list.mValentines.map (fun p => (p.source.toNat, p.dest.toNat)) = rangesOf is) ∧
    (b = false → list.mSingleOnes = [] ∧ list.mValentines = [])

theorem readsDocumented_of_false {list : CachedPortList} (h : c.fromString s = (list, .ok false))
    (hempty : list.toRPortList = {}) (hs : ¬ ∃ is, Documented s is) : ReadsDocumented c s := by
  refine ⟨list, false, h, iff_of_false (by decide) hs, nofun, fun _ => ?_⟩
  rw [hempty]
  exact ⟨rfl, rfl⟩

/-- Every other text is read as something that it is not, or `std::stoi` throws. -/
theorem reads_documented_iff (c : CachedPortList) (s : String) :
    ReadsDocumented c s ↔
      (∃ is, Documented s is) ∨ s.toList.all allowed = false ∨ Rejected (itemsOf s) := by
  constructor
  · rintro ⟨list, b, hres, hiff, -, -⟩
    by_cases hall : s.toList.all allowed = false
    · exact .inr (.inl hall)
    · by_cases hrej : Rejected (itemsOf s)
      · exact .inr (.inr hrej)
      · refine .inl (hiff.mp ?_)
        have hall' : s.toList.all allowed = true := by simpa using hall
        by_cases hok : ∀ i ∈ itemsOf s, i.Small ∧ ¬ i.Backward
        · have htrue := (Prod.mk.inj (hres.symm.trans (fromString_taken hall' hok))).2
          exact Except.ok.inj htrue
        · rw [fromString_allowed hall', parseLoop_throws rfl hok hrej] at hres
          cases (Prod.mk.inj hres).2
  · intro h
    by_cases hdoc : ∃ is, Documented s is
    · obtain ⟨is, his⟩ := hdoc
      have hitems := itemsOf_of_documented his
      have hok : ∀ i ∈ itemsOf s, i.Small ∧ ¬ i.Backward := by
        rw [hitems]
        exact fun i hi => (his.2 i hi).taken
      obtain ⟨hports, hranges⟩ := portsOf_narrow his.2
      refine ⟨_, true, fromString_taken his.1.allowed hok, iff_of_true rfl ⟨is, his⟩,
        fun _ => ⟨is, his, ?_, ?_⟩, nofun⟩
      · rw [hitems]
        exact hports
      · rw [hitems]
        exact hranges
    · rcases h.resolve_left hdoc with hall | hrej
      · exact readsDocumented_of_false (fromString_not_allowed hall) rfl hdoc
      · exact readsDocumented_of_false (fromString_rejected hrej) rfl hdoc

/-- The empty text is accepted, 70000 is stored as 4464, and a number that is too long throws. -/
theorem reads_undocumented :
    (({} : CachedPortList).fromString "" = ({}, .ok true) ∧ ¬ ∃ is, Documented "" is) ∧
    ({} : CachedPortList).fromString "70000" = ({ mSingleOnes := [4464] }, .ok true) ∧
    ({} : CachedPortList).fromString "2147483648" = ({}, .error .outOfRange) := by
  refine ⟨⟨rfl, ?_⟩, by decide +kernel, by decide +kernel⟩
  rintro ⟨is, his, -⟩
  have hlen := his.length_le
  exact his.ne_nil (List.length_eq_zero_iff.mp (Nat.le_zero.mp hlen))

end FromString

/-! ## The list of all ports -/

section Raw

variable {c c' : CachedPortList} {lists lists' : List CachedPortList}

theorem pushRange_eq (dest p : Nat) (raw : List UInt16) :
    pushRange dest p raw = raw ++ (List.range' p (dest + 1 - p)).map UInt16.ofNat := by
  induction h : dest + 1 - p generalizing p raw with
  | zero =>
    rw [pushRange, if_neg (by omega)]
    simp
  | succ k ih =>
    rw [pushRange, if_pos (by omega), ih (p + 1) _ (by omega), List.range'_succ, List.map_cons,
      List.append_assoc]
    rfl

/-- The single ports, and then every port from the source to the destination of each range. -/
def allPorts (list : RPortList) : List UInt16 :=
  list.mSingleOnes ++ list.mValentines.flatMap fun p =>
    (List.range' p.source.toNat (p.dest.toNat + 1 - p.source.toNat)).map UInt16.ofNat

theorem foldl_pushRange (ranges : List PortPair) (raw : List UInt16) :
    ranges.foldl (fun raw e => pushRange e.dest.toNat e.source.toNat raw) raw =
      raw ++ ranges.flatMap fun p =>
        (List.range' p.source.toNat (p.dest.toNat + 1 - p.source.toNat)).map UInt16.ofNat := by
  induction ranges generalizing raw with
  | nil => simp
  | cons p ranges ih => rw [List.foldl_cons, ih, pushRange_eq, List.flatMap_cons, List.append_assoc]

/-- What `mValid` says. -/
def Current (c : CachedPortList) : Prop := c.mValid = true → c.mRawList = allPorts c.toRPortList

theorem current_of_not_valid (h : c.mValid = false) : Current c := by
  intro hv
  rw [h] at hv
  cases hv

theorem current_rebuild (c : CachedPortList) : Current c.rebuild :=
  fun _ => foldl_pushRange c.mValentines c.mSingleOnes

theorem Current.validate (h : Current c) : Current c.validate ∧ c.validate.mValid = true ∧
    c.validate.toRPortList = c.toRPortList := by
  unfold CachedPortList.validate
  cases hv : c.mValid with
  | false => exact ⟨current_rebuild c, rfl, rfl⟩
  | true => exact ⟨h, hv, rfl⟩

theorem Current.getRawList (h : Current c) : c.getRawList.1 = allPorts c.toRPortList := by
  obtain ⟨hcur, hv, hlist⟩ := h.validate
  rw [← hlist]
  exact hcur hv

/-- A range that is in order and new is added. -/
theorem addPortRange_cases {nndebug : Bool} {start stop : UInt16}
    (h : c.addPortRange nndebug start stop = .ok c') :
    c' = c ∧ (stop ≤ start ∨ ⟨start, stop⟩ ∈ c.mValentines) ∨
    start < stop ∧ c' = { c.invalidState with mValentines := c.mValentines ++ [⟨start, stop⟩] } := by
  unfold addPortRange at h
  split at h
  · next hle =>
    split at h
    · exact .inl ⟨(Except.ok.inj h).symm, .inl hle⟩
    · cases h
  · next hlt =>
    split at h
    · next hmem => exact .inl ⟨(Except.ok.inj h).symm, .inr (by simpa using hmem)⟩
    · exact .inr ⟨UInt16.not_le.mp hlt, (Except.ok.inj h).symm⟩

theorem Current.addPortRange {nndebug : Bool} {start stop : UInt16} (h : Current c)
    (hc : c.addPortRange nndebug start stop = .ok c') : Current c' := by
  rcases addPortRange_cases hc with ⟨rfl, -⟩ | ⟨-, rfl⟩
  · exact h
  · exact current_of_not_valid rfl

theorem mValid_fromString (c : CachedPortList) (s : String) : (c.fromString s).1.mValid = c.mValid := by
  unfold CachedPortList.fromString
  split <;> rfl

theorem forall_update {P : CachedPortList → Prop} {i : Nat}
    {call : CachedPortList → Except Fault CachedPortList} (h : ∀ c ∈ lists, P c)
    (hcall : ∀ c c', lists[i]? = some c → call c = .ok c' → P c')
    (hu : update lists i call = .ok lists') : ∀ c ∈ lists', P c := by
  unfold update at hu
  cases hi : lists[i]? with
  | none =>
    rw [hi] at hu
    obtain rfl := Except.ok.inj hu
    exact h
  | some c =>
    rw [hi] at hu
    obtain ⟨c', hc', hu⟩ := bind_eq_ok.mp hu
    obtain rfl := Except.ok.inj hu
    intro d hd
    rcases List.mem_or_eq_of_mem_set hd with hd | rfl
    · exact h d hd
    · exact hcall c d hi hc'

/-- `FromString` is called for lists only whose list of all ports is not built. -/
def ParsesUnbuilt (lists : List CachedPortList) : Op → Prop
  | .fromString i _ => ∀ c, lists[i]? = some c → c.mValid = false
  | _ => True

theorem current_step {nndebug : Bool} {op : Op} (h : ∀ c ∈ lists, Current c)
    (hop : ParsesUnbuilt lists op) (hstep : step nndebug lists op = .ok lists') :
    ∀ c ∈ lists', Current c := by
  have hget : ∀ (i : Nat) (c c' : CachedPortList), lists[i]? = some c →
      (Except.ok c.validate : Except Fault CachedPortList) = .ok c' → Current c' := by
    intro i c c' hi hc
    obtain rfl := Except.ok.inj hc
    exact (h c (List.mem_of_getElem? hi)).validate.1
  cases op with
  | construct list =>
    obtain rfl := Except.ok.inj hstep
    intro c hc
    rcases List.mem_append.mp hc with hc | hc
    · exact h c hc
    · obtain rfl := List.mem_singleton.mp hc
      exact current_of_not_valid rfl
  | copy src =>
    obtain rfl := Except.ok.inj hstep
    intro c hc
    rcases List.mem_append.mp hc with hc | hc
    · exact h c hc
    · exact h c (List.mem_of_getElem? (Option.mem_toList.mp hc))
  | assign dst src =>
    unfold step at hstep
    dsimp only at hstep
    cases hsrc : lists[src]? with
    | none =>
      rw [hsrc] at hstep
      obtain rfl := Except.ok.inj hstep
      exact h
    | some c =>
      rw [hsrc] at hstep
      obtain rfl := Except.ok.inj hstep
      intro d hd
      rcases List.mem_or_eq_of_mem_set hd with hd | rfl
      · exact h d hd
      · exact h d (List.mem_of_getElem? hsrc)
  | addPort16 i port =>
    refine forall_update h (fun c c' _ hc => ?_) hstep
    obtain rfl := Except.ok.inj hc
    exact current_of_not_valid rfl
  | addPortRange i start stop =>
    exact forall_update h (fun c c' hi hc => (h c (List.mem_of_getElem? hi)).addPortRange hc) hstep
  | fromString i s =>
    refine forall_update h (fun c c' hi hc => ?_) hstep
    obtain rfl := Except.ok.inj hc
    exact current_of_not_valid ((mValid_fromString c s).trans (hop c hi))
  | getSinglePortList i => exact forall_update h (hget i) hstep
  | getPortRangeList i => exact forall_update h (hget i) hstep
  | getRawList i => exact forall_update h (hget i) hstep

/-- In every run that calls `FromString` for such lists only, `GetRawList` returns the ports of the list
    it is called for, whenever that is. -/
theorem raw_list_current (nndebug : Bool) (ops : List Op)
    (h : EachStep (step nndebug) ParsesUnbuilt [] ops) :
    Always (step nndebug) (fun _ _ lists => ∀ c ∈ lists, c.getRawList.1 = allPorts c.toRPortList)
      [] ops := by
  refine always_of_eachStep (J := fun lists => ∀ c ∈ lists, Current c) ?_ (by simp) h
  intro lists op lists' hcur hop hstep
  have hcur' := current_step hcur hop hstep
  exact ⟨fun c hc => (hcur' c hc).getRawList, hcur'⟩

/-- A text is read before the ports are asked for. -/
theorem raw_list_current_after_read :
    ∃ c, run (step true) [] [.construct [⟨80, 0⟩], .fromString 0 "443", .getRawList 0] = .ok [c] ∧
      c.getRawList.1 = allPorts c.toRPortList := by
  have hops : EachStep (step true) ParsesUnbuilt []
      [.construct [⟨80, 0⟩], .fromString 0 "443", .getRawList 0] := by
    refine ⟨trivial, fun lists hstep => ⟨fun c hc => ?_, fun _ _ => ⟨trivial, fun _ _ => trivial⟩⟩⟩
    obtain rfl := Except.ok.inj hstep
    obtain rfl := Option.some.inj hc
    rfl
  have hall := raw_list_current true _ hops
  obtain ⟨-, hall⟩ := hall _ rfl
  obtain ⟨-, hall⟩ := hall _ rfl
  obtain ⟨hraw, -⟩ := hall _ rfl
  exact ⟨_, rfl, hraw _ List.mem_cons_self⟩

/-- A text is read after the ports were asked for: the old ones are returned. -/
theorem raw_list_stale :
    ∃ c, run (step true) [] [.construct [⟨80, 0⟩], .getRawList 0, .fromString 0 "443"] = .ok [c] ∧
      c.getRawList.1 = [80] ∧ allPorts c.toRPortList = [443] :=
  ⟨{ mSingleOnes := [443], mValid := true, mRawList := [80] }, by decide +kernel, by decide +kernel,
    by decide +kernel⟩

end Raw

/-! ## Printing and reading -/

section RoundTrip

variable {c c' : CachedPortList} {s : String}

/-- The loop on the object does what the loop on the bare lists does. -/
theorem parsePorts_eq_parseLoop (fuel : Nat) (str : List Char) (list : RPortList) :
    parsePorts fuel str list = (parseLoop fuel str list).2.map fun b =>
      if b then some (parseLoop fuel str list).1 else none := by
  induction fuel generalizing str list with
  | zero => rfl
  | succ fuel ih =>
    rw [parsePorts, parseLoop]
    cases regexSearch str with
    | none => rfl
    | some m =>
      cases m with
      | single digits suffix =>
        dsimp only
        cases stoi digits with
        | error e => rfl
        | ok p => exact ih suffix _
      | range first last suffix =>
        dsimp only
        cases stoi first with
        | error e => rfl
        | ok start =>
          cases stoi last with
          | error e => rfl
          | ok stop =>
            simp only [ok_bind]
            split
            · rfl
            · exact ih suffix _

theorem fromString_eq (c : CachedPortList) (s : String) :
    RPortList.fromString s = (c.fromString s).2.map fun b =>
      if b then some (c.fromString s).1.toRPortList else none := by
  by_cases h : s.toList.all allowed = true
  · rw [fromString_allowed h]
    exact (if_pos h).trans (parsePorts_eq_parseLoop _ _ _)
  · rw [fromString_not_allowed (by simpa using h)]
    exact if_neg h

theorem fromString_eq_true {list : RPortList} (h : RPortList.fromString s = .ok (some list)) :
    ∃ c', c.fromString s = (c', .ok true) ∧ c'.toRPortList = list := by
  rw [fromString_eq c s] at h
  cases hc : c.fromString s with
  | mk c' r =>
    rw [hc] at h
    cases r with
    | error e => cases h
    | ok b =>
      cases b with
      | false => cases Except.ok.inj h
      | true => exact ⟨c', rfl, Option.some.inj (Except.ok.inj h)⟩

/-- The text of the list is read into any other, and then both have the same ports. The list of all
    ports is the same unless the other one has built its own before. -/
def RoundTrips (c : CachedPortList) : Prop :=
  ∀ c₂ : CachedPortList, ∃ c₂', c₂.fromString c.toRPortList.toString = (c₂', .ok true) ∧
    c₂'.toRPortList = c.toRPortList ∧
    (c₂.mValid = false → c₂'.getRawList.1 = c.getRawList.1)

theorem roundTrips_iff (h : c.mValid = false) : RoundTrips c ↔ RangesOk c.toRPortList := by
  have htext := fromString_toString c.toRPortList
  constructor
  · intro hround
    obtain ⟨c', hc', hlist, -⟩ := hround {}
    by_contra hranges
    rw [if_neg hranges, fromString_eq {}, hc'] at htext
    cases Except.ok.inj htext
  · intro hranges c₂
    rw [if_pos hranges] at htext
    obtain ⟨c', hc', hlist⟩ := fromString_eq_true (c := c₂) htext
    refine ⟨c', hc', hlist, fun h₂ => ?_⟩
    have hvalid : c'.mValid = false := by
      have hv := mValid_fromString c₂ c.toRPortList.toString
      rw [hc'] at hv
      exact hv.trans h₂
    rw [(current_of_not_valid hvalid).getRawList, (current_of_not_valid h).getRawList, hlist]

theorem valentines_buildRPortList (list : RPortList) (pairs : List PortPair) :
    (buildRPortList list pairs).mValentines =
      list.mValentines ++ pairs.filter fun p => p.source < p.dest := by
  induction pairs generalizing list with
  | nil => simp [buildRPortList]
  | cons p pairs ih =>
    rw [buildRPortList]
    split
    · next hlt =>
      rw [ih]
      simp [hlt]
    · next hle =>
      split <;> rw [ih] <;> simp [hle]

theorem rangesOk_ofPairs (pairs : List PortPair) :
    RangesOk (ofPairs pairs).toRPortList ↔ ∀ p ∈ pairs, p.source < p.dest → 0 < p.source := by
  have hranges : (ofPairs pairs).mValentines = pairs.filter fun p => p.source < p.dest :=
    (valentines_buildRPortList {} pairs).trans (List.nil_append _)
  unfold RangesOk
  rw [hranges]
  constructor
  · intro h p hp hlt
    exact (h p (List.mem_filter.mpr ⟨hp, by simpa using hlt⟩)).1
  · intro h p hp
    obtain ⟨hp, hlt⟩ := List.mem_filter.mp hp
    have hlt' : p.source < p.dest := by simpa using hlt
    exact ⟨h p hp hlt', hlt'⟩

theorem taken_of_accepted (h : (c.fromString s).2 = .ok true) :
    s.toList.all allowed = true ∧ ∀ i ∈ itemsOf s, i.Small ∧ ¬ i.Backward := by
  have hall : s.toList.all allowed = true := by
    by_contra hall
    rw [fromString_not_allowed (by simpa using hall)] at h
    cases h
  refine ⟨hall, ?_⟩
  by_contra hok
  by_cases hrej : Rejected (itemsOf s)
  · rw [fromString_rejected hrej] at h
    cases h
  · rw [fromString_allowed hall] at h
    cases (parseLoop_throws rfl hok hrej {}).symm.trans h

theorem rangesOk_push (is : List Item) :
    RangesOk (push {} is) ↔
      ∀ r ∈ rangesOf is, 0 < r.1 % 65536 ∧ r.1 % 65536 < r.2 % 65536 := by
  unfold RangesOk push
  simp only [List.nil_append, List.forall_mem_map, UInt16.lt_iff_toNat_lt, UInt16.toNat_ofNat']
  rfl

/-- A range that is added starts above 0, and the ranges of a text are in order still when they are cut
    to 16 bits. -/
def BuildOp.InOrder : BuildOp → Prop
  | .addPort16 _ => True
  | .addPortRange start stop => start < stop → 0 < start
  | .fromString s => ∀ r ∈ rangesOf (itemsOf s.text), 0 < r.1 % 65536 ∧ r.1 % 65536 < r.2 % 65536

theorem mValid_build {nndebug : Bool} {op : BuildOp} (h : c.mValid = false)
    (hb : build nndebug c op = .ok c') : c'.mValid = false := by
  cases op with
  | addPort16 port =>
    obtain rfl := Except.ok.inj hb
    rfl
  | addPortRange start stop =>
    rcases addPortRange_cases hb with ⟨rfl, -⟩ | ⟨-, rfl⟩
    · exact h
    · rfl
  | fromString s =>
    obtain rfl := Except.ok.inj hb
    exact (mValid_fromString c s.text).trans h

/-- What one call does to the ranges. -/
theorem rangesOk_build_iff {nndebug : Bool} {op : BuildOp} (h : RangesOk c.toRPortList)
    (hb : build nndebug c op = .ok c') : RangesOk c'.toRPortList ↔ op.InOrder := by
  cases op with
  | addPort16 port =>
    obtain rfl := Except.ok.inj hb
    exact iff_of_true h trivial
  | addPortRange start stop =>
    rcases addPortRange_cases hb with ⟨rfl, hold⟩ | ⟨hlt, rfl⟩
    · refine iff_of_true h fun hlt => ?_
      rcases hold with hle | hmem
      · exact absurd hlt (UInt16.not_lt.mpr hle)
      · exact (h _ hmem).1
    · constructor
      · intro h' _
        exact (h' ⟨start, stop⟩ (by simp)).1
      · intro hpos p hp
        rcases List.mem_append.mp hp with hp | hp
        · exact h p hp
        · obtain rfl := List.mem_singleton.mp hp
          exact ⟨hpos hlt, hlt⟩
  | fromString s =>
    obtain rfl := Except.ok.inj hb
    obtain ⟨hall, hok⟩ := taken_of_accepted s.accepted
    rw [fromString_taken hall hok]
    exact rangesOk_push (itemsOf s.text)

/-- Only a range that is not in order ends with a fault. -/
theorem inOrder_of_fault {nndebug : Bool} {op : BuildOp} {e : Fault}
    (hb : build nndebug c op = .error e) : op.InOrder := by
  cases op with
  | addPort16 port => cases hb
  | addPortRange start stop =>
    intro hlt
    unfold build addPortRange at hb
    dsimp only at hb
    rw [if_neg (UInt16.not_le.mpr hlt)] at hb
    split at hb <;> cases hb
  | fromString s => cases hb

/-- For every list, however it was built. -/
theorem round_trips_iff_in_order (nndebug : Bool) (pairs : List PortPair) (ops : List BuildOp) :
    (RoundTrips (ofPairs pairs) ∧
      Always (build nndebug) (fun _ _ c => RoundTrips c) (ofPairs pairs) ops) ↔
    (∀ p ∈ pairs, p.source < p.dest → 0 < p.source) ∧
      EachStep (build nndebug) (fun _ op => op.InOrder) (ofPairs pairs) ops := by
  rw [roundTrips_iff rfl, rangesOk_ofPairs]
  refine and_congr_right fun hpairs => ?_
  refine always_iff_eachStep (J := fun c => c.mValid = false ∧ RangesOk c.toRPortList) ?_ ?_ ops _
    ⟨rfl, (rangesOk_ofPairs pairs).mpr hpairs⟩
  · rintro c op c' ⟨hv, -⟩ hb hround
    have hv' := mValid_build hv hb
    exact ⟨hv', (roundTrips_iff hv').mp hround⟩
  · rintro c op ⟨hv, hranges⟩
    cases hb : build nndebug c op with
    | error e => exact iff_of_true nofun (inOrder_of_fault hb)
    | ok c' =>
      rw [← rangesOk_build_iff hranges hb, ← roundTrips_iff (mValid_build hv hb)]
      constructor
      · intro h
        exact h c' rfl
      · rintro h c'' hc
        obtain rfl := Except.ok.inj hc
        exact h

/-- Neither a range from port 0 on is read back, nor one that was cut to 16 bits. -/
theorem range_not_read_back :
    (({} : CachedPortList).fromString (ofPairs [⟨0, 80⟩]).toRPortList.toString).2 = .ok false ∧
    ∃ c, ({} : CachedPortList).fromString "60000-65537" = (c, .ok true) ∧
      (({} : CachedPortList).fromString c.toRPortList.toString).2 = .ok false :=
  ⟨by decide +kernel, { mValentines := [⟨60000, 1⟩] }, by decide +kernel, by decide +kernel⟩

end RoundTrip

end CachedPortList

end Rsock
