import Mathlib.Data.List.TakeWhile
import Rsock.RConfig

/-!
# Proofs: the configuration and its JSON text

The text of a list of ports is read back if its ranges are in order (`RPortList.fromString_toString`),
the text of an address if the address has no colon in it (`RConfig.parseAddr_text`). The other members
are read as they were written, but for two: `daemon` is written as a boolean and looked for as a number,
`cap_timeout` is written as a number and looked for as a string (`RConfig.round_trip_iff`).
-/

namespace Rsock

open CMem

/-! ## Decimal numbers -/

/-- The digits of a number are digits. -/
theorem isDigit_of_mem {c : Char} {n : Nat} (hc : c ∈ Nat.toDigits 10 n) : c.isDigit = true :=
  Nat.isDigit_of_mem_toDigits (by decide) (by decide) hc

theorem stoi_toDigits (n : UInt16) : stoi (Nat.toDigits 10 n.toNat) = .ok n.toNat := by
  have hn := n.toNat_lt
  unfold stoi
  rw [Nat.ofDigitChars_ten_toDigits, if_pos (by omega)]

/-- No digit is at the front. -/
def NoDigit (l : List Char) : Prop := ∀ c ∈ l.head?, c.isDigit = false

/-- A text of digits. -/
def IsDigits (ds : List Char) : Prop := ds ≠ [] ∧ ∀ c ∈ ds, c.isDigit = true

theorem isDigits_toDigits (n : Nat) : IsDigits (Nat.toDigits 10 n) :=
  ⟨Nat.toDigits_ne_nil, fun _ hc => isDigit_of_mem hc⟩

theorem span_digits {ds rest : List Char} (hds : IsDigits ds) (hrest : NoDigit rest) :
    (ds ++ rest).takeWhile Char.isDigit = ds ∧ (ds ++ rest).dropWhile Char.isDigit = rest := by
  have htake : rest.takeWhile Char.isDigit = [] ∧ rest.dropWhile Char.isDigit = rest := by
    cases rest with
    | nil => exact ⟨rfl, rfl⟩
    | cons c rest =>
      have hc : ¬ c.isDigit = true := by simp [hrest c rfl]
      exact ⟨List.takeWhile_cons_of_neg hc, List.dropWhile_cons_of_neg hc⟩
  rw [List.takeWhile_append_of_pos hds.2, List.dropWhile_append_of_pos hds.2, htake.1, htake.2]
  exact ⟨List.append_nil _, rfl⟩

theorem drop_nonDigits {ds : List Char} (hds : IsDigits ds) (rest : List Char) :
    (ds ++ rest).dropWhile (fun ch => !ch.isDigit) = ds ++ rest := by
  cases ds with
  | nil => exact absurd rfl hds.1
  | cons c cs =>
    have hc : c.isDigit = true := hds.2 c List.mem_cons_self
    exact List.dropWhile_cons_of_neg (by simp [hc])

/-! ## Lists of ports -/

namespace RPortList

/-- What stands between two commas. -/
inductive Token where
  | single (port : UInt16)
  | range (p : PortPair)

/-- The text of a token. -/
def Token.text : Token → String
  | .single port => portText port
  | .range p => rangeText p

/-- The ports and the ranges of a list in the order in which they are written. -/
def tokens (list : RPortList) : List Token :=
  list.mSingleOnes.map .single ++ list.mValentines.map .range

theorem commas_append {ts ts' : List String} (hts : ts ≠ []) (hts' : ts' ≠ []) :
    commas (ts ++ ts') = commas ts ++ ", " ++ commas ts' := by
  induction ts with
  | nil => exact absurd rfl hts
  | cons t ts ih =>
    cases ts with
    | nil =>
      cases ts' with
      | nil => exact absurd rfl hts'
      | cons t' ts' => rfl
    | cons t₁ ts =>
      have hrest := ih (List.cons_ne_nil t₁ ts)
      rw [List.cons_append] at hrest
      simp only [List.cons_append, commas, hrest, String.append_assoc]

/-- The text of a list is that of its tokens, one after the other. -/
theorem toString_eq (list : RPortList) : list.toString = commas (list.tokens.map Token.text) := by
  have hsingles : list.mSingleOnes.map portText = (list.mSingleOnes.map Token.single).map Token.text := by
    rw [List.map_map]
    rfl
  have hranges : list.mValentines.map rangeText = (list.mValentines.map Token.range).map Token.text := by
    rw [List.map_map]
    rfl
  unfold toString tokens
  rw [List.map_append, ← hsingles, ← hranges]
  cases hv : list.mValentines with
  | nil => simp
  | cons p ps =>
    cases hs : list.mSingleOnes with
    | nil => simp [commas]
    | cons q qs =>
      rw [commas_append (by simp) (by simp)]
      simp [String.append_assoc]

/-- What a token adds to the list, unless it is a range in a wrong format. -/
def add (list : RPortList) : Token → Option RPortList
  | .single port => some { list with mSingleOnes := list.mSingleOnes ++ [port] }
  | .range p =>
    if 0 < p.source ∧ p.source < p.dest then
      some { list with mValentines := list.mValentines ++ [p] }
    else none

theorem regexSearch_single {ds rest : List Char} (hds : IsDigits ds) (hrest : NoDigit rest)
    (hdash : ∀ l, rest ≠ '-' :: l) : regexSearch (ds ++ rest) = some (.single ds rest) := by
  have hne : (ds ++ rest).isEmpty = false := by simp [hds.1]
  unfold regexSearch
  simp only [drop_nonDigits hds, hne, (span_digits hds hrest).1, (span_digits hds hrest).2]
  split
  · next h => cases h
  · rfl

theorem regexSearch_range {ds ds' rest : List Char} (hds : IsDigits ds) (hds' : IsDigits ds')
    (hrest : NoDigit rest) :
    regexSearch (ds ++ '-' :: (ds' ++ rest)) = some (.range ds ds' rest) := by
  have hdash : NoDigit ('-' :: (ds' ++ rest)) := by
    intro c hc
    obtain rfl := Option.some.inj hc
    decide
  have hne : (ds ++ '-' :: (ds' ++ rest)).isEmpty = false := by simp
  have hne' : ds'.isEmpty = false := by simp [hds'.1]
  unfold regexSearch
  simp only [drop_nonDigits hds, hne, (span_digits hds hdash).1, (span_digits hds hdash).2,
    (span_digits hds' hrest).1, (span_digits hds' hrest).2, hne']
  rfl

theorem portText_toList (port : UInt16) : (portText port).toList = Nat.toDigits 10 port.toNat :=
  Nat.toList_repr

/-- One round of the loop takes one token. -/
theorem parsePorts_token (t : Token) (fuel : Nat) (list : RPortList) {rest : List Char}
    (hrest : NoDigit rest) (hdash : ∀ l, rest ≠ '-' :: l) :
    parsePorts (fuel + 1) (t.text.toList ++ rest) list =
      match list.add t with
      | none => .ok none
      | some list' => parsePorts fuel rest list' := by
  cases t with
  | single port =>
    rw [Token.text, portText_toList, parsePorts,
      regexSearch_single (isDigits_toDigits _) hrest hdash]
    simp only [stoi_toDigits, ok_bind, UInt16.ofNat_toNat, add]
  | range p =>
    have htext : (Token.range p).text.toList ++ rest =
        Nat.toDigits 10 p.source.toNat ++ '-' :: (Nat.toDigits 10 p.dest.toNat ++ rest) := by
      simp only [Token.text, rangeText, String.toList_append, portText_toList, List.append_assoc]
      rfl
    have hwrong : (p.source.toNat ≥ p.dest.toNat ∨ p.source.toNat = 0 ∨ p.dest.toNat = 0) ↔
        ¬ (0 < p.source ∧ p.source < p.dest) := by
      rw [UInt16.lt_iff_toNat_lt, UInt16.lt_iff_toNat_lt]
      have hzero : (0 : UInt16).toNat = 0 := rfl
      omega
    rw [htext, parsePorts, regexSearch_range (isDigits_toDigits _) (isDigits_toDigits _) hrest]
    simp only [stoi_toDigits, ok_bind, UInt16.ofNat_toNat, add]
    by_cases hok : 0 < p.source ∧ p.source < p.dest
    · rw [if_pos hok, if_neg (by rw [hwrong]; exact not_not.mpr hok)]
    · rw [if_neg hok, if_pos (hwrong.mpr hok)]
      rfl

theorem regexSearch_skip {c : Char} (hc : c.isDigit = false) (l : List Char) :
    regexSearch (c :: l) = regexSearch l := by
  unfold regexSearch
  rw [List.dropWhile_cons_of_pos (by simp [hc])]

/-- The comma and the blank between two tokens are skipped. -/
theorem parsePorts_comma (fuel : Nat) (l : List Char) (list : RPortList) :
    parsePorts fuel (',' :: ' ' :: l) list = parsePorts fuel l list := by
  have hskip : regexSearch (',' :: ' ' :: l) = regexSearch l := by
    rw [regexSearch_skip (by decide), regexSearch_skip (by decide)]
  cases fuel with
  | zero => rfl
  | succ fuel => rw [parsePorts, parsePorts, hskip]

theorem parsePorts_nil (fuel : Nat) (list : RPortList) : parsePorts fuel [] list = .ok (some list) := by
  cases fuel with
  | zero => rfl
  | succ fuel => rfl

theorem parsePorts_commas (ts : List Token) (fuel : Nat) (list : RPortList) (hfuel : ts.length ≤ fuel) :
    parsePorts fuel (commas (ts.map Token.text)).toList list = .ok (ts.foldlM add list) := by
  induction ts generalizing fuel list with
  | nil => exact parsePorts_nil fuel list
  | cons t ts ih =>
    obtain ⟨fuel, rfl⟩ : ∃ n, fuel = n + 1 := Nat.exists_eq_add_one.mpr (by simp at hfuel; omega)
    have hfuel' : ts.length ≤ fuel := by simpa using hfuel
    have hrest : ∃ rest, (commas ((t :: ts).map Token.text)).toList = t.text.toList ++ rest ∧
        NoDigit rest ∧ (∀ l, rest ≠ '-' :: l) ∧
        ∀ list', parsePorts fuel rest list' = .ok (ts.foldlM add list') := by
      cases ts with
      | nil =>
        refine ⟨[], by simp [commas], ?_, ?_, fun list' => parsePorts_nil fuel list'⟩
        · intro c hc
          cases hc
        · intro l hl
          cases hl
      | cons t' ts =>
        refine ⟨',' :: ' ' :: (commas ((t' :: ts).map Token.text)).toList, ?_, ?_, ?_, ?_⟩
        · simp [commas, String.toList_append]
        · intro c hc
          obtain rfl := Option.some.inj hc
          decide
        · intro l hl
          simp at hl
        · intro list'
          rw [parsePorts_comma]
          exact ih fuel list' hfuel'
    obtain ⟨rest, htext, hnd, hdash, hparse⟩ := hrest
    rw [htext, parsePorts_token t fuel list hnd hdash, List.foldlM_cons]
    cases list.add t with
    | none => rfl
    | some list' => exact hparse list'

theorem foldlM_singles (ports : List UInt16) (list : RPortList) :
    (ports.map Token.single).foldlM add list =
      some { list with mSingleOnes := list.mSingleOnes ++ ports } := by
  induction ports generalizing list with
  | nil => simp
  | cons port ports ih =>
    rw [List.map_cons, List.foldlM_cons, add, Option.bind_eq_bind, Option.bind_some, ih]
    simp

/-- Every range is in order, and does not start with 0. -/
def RangesOk (list : RPortList) : Prop := ∀ p ∈ list.mValentines, 0 < p.source ∧ p.source < p.dest

instance (list : RPortList) : Decidable list.RangesOk :=
  inferInstanceAs (Decidable (∀ p ∈ list.mValentines, _))

theorem foldlM_ranges (ranges : List PortPair) (list : RPortList) :
    (ranges.map Token.range).foldlM add list =
      if ∀ p ∈ ranges, 0 < p.source ∧ p.source < p.dest then
        some { list with mValentines := list.mValentines ++ ranges }
      else none := by
  induction ranges generalizing list with
  | nil => simp
  | cons p ranges ih =>
    rw [List.map_cons, List.foldlM_cons, add]
    by_cases hp : 0 < p.source ∧ p.source < p.dest
    · rw [if_pos hp, Option.bind_eq_bind, Option.bind_some, ih]
      simp [hp]
    · rw [if_neg hp, if_neg fun hall => hp (hall p List.mem_cons_self)]
      rfl

/-- The characters that `FromString` allows. -/
def allowed (ch : Char) : Bool := ch.isDigit || ch == ',' || ch == '-' || ch == ' '

theorem allowed_portText (port : UInt16) : (portText port).toList.all allowed = true := by
  rw [portText_toList, List.all_eq_true]
  intro c hc
  simp [allowed, isDigit_of_mem hc]

theorem allowed_text (t : Token) : t.text.toList.all allowed = true := by
  cases t with
  | single port => exact allowed_portText port
  | range p =>
    simp only [Token.text, rangeText, String.toList_append, List.all_append, allowed_portText]
    decide

theorem allowed_commas (ts : List Token) : (commas (ts.map Token.text)).toList.all allowed = true := by
  induction ts with
  | nil => rfl
  | cons t ts ih =>
    cases ts with
    | nil => exact allowed_text t
    | cons t' ts =>
      simp only [List.map_cons] at ih
      simp only [List.map_cons, commas, String.toList_append, List.all_append, allowed_text, ih]
      decide

theorem length_le_commas (ts : List Token) : ts.length ≤ (commas (ts.map Token.text)).toList.length := by
  induction ts with
  | nil => exact Nat.zero_le _
  | cons t ts ih =>
    have hpos : 0 < t.text.toList.length := by
      cases t with
      | single port =>
        rw [Token.text, portText_toList]
        exact Nat.length_toDigits_pos
      | range p =>
        simp only [Token.text, rangeText, String.toList_append, List.length_append]
        have hdash : ("-" : String).toList.length = 1 := rfl
        omega
    cases ts with
    | nil => exact hpos
    | cons t' ts =>
      simp only [List.map_cons, commas, String.toList_append, List.length_append, List.length_cons] at ih ⊢
      omega

/-- A list of ports is read back from its text exactly if its ranges are in order. -/
theorem fromString_toString (list : RPortList) :
    fromString list.toString = .ok (if list.RangesOk then some list else none) := by
  rw [toString_eq]
  have hloop := parsePorts_commas list.tokens _ {} (length_le_commas list.tokens)
  refine (if_pos (allowed_commas list.tokens)).trans ?_
  rw [hloop, tokens, List.foldlM_append, foldlM_singles,
    Option.bind_eq_bind, Option.bind_some, foldlM_ranges]
  rfl

end RPortList

/-! ## Addresses -/

theorem validIp4_eq_true (ip : String) : validIp4 ip = true := by
  unfold validIp4 inetPton
  dsimp only
  split <;> decide

namespace RConfig

/-- The address up to the first colon. -/
def hostPart (addr : String) : String := String.ofList (addr.toList.takeWhile (· != ':'))

theorem hostPart_eq_self_iff (addr : String) : hostPart addr = addr ↔ ':' ∉ addr.toList := by
  unfold hostPart
  rw [← String.toList_inj, String.toList_ofList, List.takeWhile_eq_self_iff]
  constructor
  · intro h hc
    simpa using h ':' hc
  · intro h c hc
    simp only [bne_iff_ne, ne_eq]
    rintro rfl
    exact h hc

theorem findIdx?_of_not_mem {l : List Char} (h : ':' ∉ l) : l.findIdx? (· == ':') = none := by
  refine List.findIdx?_eq_none_iff.mpr fun c hc => ?_
  have hne : c ≠ ':' := fun heq => h (heq ▸ hc)
  simpa using hne

theorem findIdx?_append {a : List Char} (ha : ':' ∉ a) (b : List Char) :
    (a ++ ':' :: b).findIdx? (· == ':') = some a.length := by
  rw [List.findIdx?_append, findIdx?_of_not_mem ha]
  simp [List.findIdx?_cons]

theorem digit_iff (ch : Char) : ('0' ≤ ch && ch ≤ '9') = ch.isDigit := by
  unfold Char.isDigit
  rfl

/-- The text behind the first colon. -/
def portPart (addr : String) : List Char := (addr.toList.dropWhile (· != ':')).drop 1

/-- The number behind the first colon. -/
def portNumber (addr : String) : Option Nat :=
  if portPart addr ≠ [] ∧ (portPart addr).all Char.isDigit then
    some (Nat.ofDigitChars 10 (portPart addr) 0)
  else none

theorem parts_of_colon {addr : String} {a b : List Char} (hab : addr.toList = a ++ ':' :: b)
    (ha : ':' ∉ a) : hostPart addr = String.ofList a ∧ portPart addr = b := by
  have hall : ∀ c ∈ a, (c != ':') = true := by
    intro c hc
    rw [bne_iff_ne]
    rintro rfl
    exact ha hc
  unfold hostPart portPart
  rw [hab, List.takeWhile_append_of_pos hall, List.dropWhile_append_of_pos hall]
  simp

/-- What `parseAddr` makes of the two parts. -/
theorem parseAddr_eq (addr : String) (port : UInt16) (usePort : Bool) :
    parseAddr addr port usePort =
      if usePort then
        match portNumber addr with
        | none => .ok (false, hostPart addr, port)
        | some n =>
          if n < 2 ^ 31 then .ok (UInt16.ofNat n ≠ 0, hostPart addr, UInt16.ofNat n)
          else .error .outOfRange
      else .ok (true, hostPart addr, port) := by
  by_cases hc : ':' ∈ addr.toList
  · obtain ⟨a, b, hab, ha⟩ := List.eq_append_cons_of_mem hc
    obtain ⟨hhost, hport⟩ := parts_of_colon hab ha
    have hpos := findIdx?_append ha b
    have hlt : a.length < (a ++ ':' :: b).length - 1 ↔ b ≠ [] := by
      rw [List.length_append, List.length_cons, ← List.length_pos_iff]
      omega
    have hdrop : (a ++ ':' :: b).drop (a.length + 1) = b := by
      rw [← List.drop_drop, List.drop_left]
      rfl
    have hdigits : (b.all fun ch => '0' ≤ ch && ch ≤ '9') = b.all Char.isDigit := by
      simp only [digit_iff]
    unfold parseAddr portNumber
    simp only [hab, hpos, List.take_left, validIp4_eq_true, hhost, hport, hdrop, hlt, hdigits]
    cases usePort with
    | false => simp [pure, Except.pure]
    | true =>
      by_cases hb : b ≠ []
      · by_cases hd : b.all Char.isDigit = true
        · by_cases hn : Nat.ofDigitChars 10 b 0 < 2 ^ 31
          · have hstoi : stoi b = .ok (Nat.ofDigitChars 10 b 0) := if_pos hn
            simp [hb, hd, hstoi, pure, Except.pure]
            omega
          · have hstoi : stoi b = .error .outOfRange := if_neg hn
            simp [hb, hd, hstoi]
            omega
        · simp [hb, hd, pure, Except.pure]
      · simp [hb, pure, Except.pure]
  · have hhost : hostPart addr = addr := (hostPart_eq_self_iff addr).mpr hc
    have hport : portPart addr = [] := by
      have hdrop : addr.toList.dropWhile (· != ':') = [] := by
        rw [List.dropWhile_eq_nil_iff]
        intro c hc'
        rw [bne_iff_ne]
        rintro rfl
        exact hc hc'
      unfold portPart
      rw [hdrop]
      rfl
    unfold parseAddr portNumber
    simp only [findIdx?_of_not_mem hc, validIp4_eq_true, hhost, hport]
    cases usePort <;> simp [pure, Except.pure]

/-- Without a port, everything up to the first colon is the address. -/
theorem parseAddr_host (addr : String) (port : UInt16) :
    parseAddr addr port false = .ok (true, hostPart addr, port) := by
  rw [parseAddr_eq]
  rfl

theorem addrText_toList (ip : String) (port : UInt16) :
    (addrText ip port).toList = ip.toList ++ ':' :: Nat.toDigits 10 port.toNat := by
  simp only [addrText, String.toList_append, Nat.toList_repr, List.append_assoc]
  rfl

/-- With a port, the address is read back if it has no colon, and if the port is not 0. -/
theorem parseAddr_text (ip : String) (port old : UInt16) (hc : ':' ∉ ip.toList) :
    parseAddr (addrText ip port) old true = .ok (port ≠ 0, ip, port) := by
  obtain ⟨hhost, hport⟩ := parts_of_colon (addrText_toList ip port) hc
  have hall : (Nat.toDigits 10 port.toNat).all Char.isDigit = true :=
    List.all_eq_true.mpr fun c hc => isDigit_of_mem hc
  have hnumber : portNumber (addrText ip port) = some port.toNat := by
    unfold portNumber
    rw [hport, if_pos ⟨Nat.toDigits_ne_nil, hall⟩, Nat.ofDigitChars_ten_toDigits]
  have hlt := port.toNat_lt
  rw [parseAddr_eq, if_pos rfl, hnumber, hhost, String.ofList_toList]
  dsimp only
  rw [if_pos (by omega), UInt16.ofNat_toNat]

/-- An address with a colon of its own cannot be told from its port. -/
theorem parseAddr_text_colon (ip : String) (port old : UInt16) (hc : ':' ∈ ip.toList) :
    ∃ ip' port', parseAddr (addrText ip port) old true = .ok (false, ip', port') := by
  obtain ⟨a, b, hab, ha⟩ := List.eq_append_cons_of_mem hc
  have hlist : (addrText ip port).toList = a ++ ':' :: (b ++ ':' :: Nat.toDigits 10 port.toNat) := by
    rw [addrText_toList, hab, List.append_assoc, List.cons_append]
  obtain ⟨-, hport⟩ := parts_of_colon hlist ha
  have hcolon : ¬ (b ++ ':' :: Nat.toDigits 10 port.toNat).all Char.isDigit = true := by
    rw [List.all_eq_true]
    intro hall
    exact absurd (hall ':' (by simp)) (by decide)
  have hnumber : portNumber (addrText ip port) = none := by
    unfold portNumber
    rw [hport, if_neg fun h => hcolon h.2]
  refine ⟨hostPart (addrText ip port), old, ?_⟩
  rw [parseAddr_eq, if_pos rfl, hnumber]

/-! ## What `parseAddr` accepts -/

/-- The address before the colon is valid and, with `usePort`, a number from 1 to 65535 is behind it. -/
def ValidAddr (addr : String) (usePort : Bool) : Prop :=
  inetPton (hostPart addr) = 1 ∧
    (usePort = true → ∃ n, portNumber addr = some n ∧ 1 ≤ n ∧ n ≤ 65535)

/-- `parseAddr` accepts exactly these, and stores what it has read. -/
def ParsesExactly (addr : String) (port : UInt16) (usePort : Bool) : Prop :=
  ∃ ok ip port', parseAddr addr port usePort = .ok (ok, ip, port') ∧
    (ok = true ↔ ValidAddr addr usePort) ∧
    (ok = true → ip = hostPart addr ∧ (usePort = true → portNumber addr = some port'.toNat))

/-- The address is valid or not looked at, and the port fits into 16 bits or is cut to 0. -/
def AddrInRange (addr : String) (usePort : Bool) : Prop :=
  if usePort then
    ∀ n, portNumber addr = some n →
      n < 2 ^ 31 ∧ n % 65536 = 0 ∨ 1 ≤ n ∧ n ≤ 65535 ∧ inetPton (hostPart addr) = 1
  else inetPton (hostPart addr) = 1

theorem parsesExactly_iff_of_eq {addr ip : String} {port port' : UInt16} {usePort ok : Bool}
    (h : parseAddr addr port usePort = .ok (ok, ip, port')) :
    ParsesExactly addr port usePort ↔ (ok = true ↔ ValidAddr addr usePort) ∧
      (ok = true → ip = hostPart addr ∧ (usePort = true → portNumber addr = some port'.toNat)) := by
  constructor
  · rintro ⟨ok', ip', port'', heq, hok⟩
    obtain ⟨rfl, hrest⟩ := Prod.mk.inj (Except.ok.inj (h.symm.trans heq))
    obtain ⟨rfl, rfl⟩ := Prod.mk.inj hrest
    exact hok
  · intro hok
    exact ⟨ok, ip, port', h, hok⟩

theorem parsesExactly_number_iff {addr : String} {n : Nat} (port : UInt16)
    (hn : portNumber addr = some n) :
    ParsesExactly addr port true ↔
      n < 2 ^ 31 ∧ n % 65536 = 0 ∨ 1 ≤ n ∧ n ≤ 65535 ∧ inetPton (hostPart addr) = 1 := by
  have heq := parseAddr_eq addr port true
  rw [if_pos rfl, hn] at heq
  dsimp only at heq
  by_cases hlt : n < 2 ^ 31
  · rw [if_pos hlt] at heq
    have hvalid : ValidAddr addr true ↔ inetPton (hostPart addr) = 1 ∧ 1 ≤ n ∧ n ≤ 65535 := by
      simp [ValidAddr, hn]
    have hcut : (UInt16.ofNat n).toNat = n % 65536 := UInt16.toNat_ofNat'
    have hzero : decide (UInt16.ofNat n ≠ 0) = true ↔ n % 65536 ≠ 0 := by
      rw [decide_eq_true_iff, ← hcut, ne_eq, ne_eq, ← UInt16.toNat_inj]
      rfl
    have hsame : portNumber addr = some (UInt16.ofNat n).toNat ↔ n < 65536 := by
      rw [hn, hcut, Option.some.injEq]
      omega
    rw [parsesExactly_iff_of_eq heq, hzero, hvalid, hsame]
    simp only [true_and, forall_const]
    omega
  · rw [if_neg hlt] at heq
    refine iff_of_false ?_ (by omega)
    rintro ⟨ok, ip, port', hok, -⟩
    cases heq.symm.trans hok

/-- For every text and both values of `usePort`. The check of the address accepts every text, and the
    port is cut to 16 bits. -/
theorem parses_exactly_iff (addr : String) (port : UInt16) (usePort : Bool) :
    ParsesExactly addr port usePort ↔ AddrInRange addr usePort := by
  unfold AddrInRange
  have heq := parseAddr_eq addr port usePort
  cases usePort with
  | false =>
    rw [if_neg (by decide)] at heq ⊢
    rw [parsesExactly_iff_of_eq heq]
    simp [ValidAddr]
  | true =>
    rw [if_pos rfl] at heq ⊢
    cases hn : portNumber addr with
    | none =>
      rw [hn] at heq
      rw [parsesExactly_iff_of_eq heq]
      simp [ValidAddr, hn]
    | some n =>
      rw [parsesExactly_number_iff port hn]
      simp

/-- A text that is no address is accepted, port 65537 is read as 1, and a greater number is not read
    at all. -/
theorem parseAddr_accepts_nonsense :
    (∃ addr, inetPton (hostPart addr) = 0 ∧ parseAddr addr 0 false = .ok (true, addr, 0)) ∧
    parseAddr "8.8.8.8:65537" 0 true = .ok (true, "8.8.8.8", 1) ∧
    parseAddr "8.8.8.8:2147483648" 0 true = .error .outOfRange :=
  ⟨⟨"nonsense", by decide +kernel, by decide +kernel⟩, by decide +kernel, by decide +kernel⟩

/-! ## The round trip -/

section Read

variable {o : Json} {key s : String} {n : Int}

theorem readString_string {α : Type} (h : o.get key = .string s) (old : α) (set : String → α) :
    readString o key old set = set s := by
  unfold readString
  rw [h]
  rfl

theorem readString_number {α : Type} (h : o.get key = .number n) (old : α) (set : String → α) :
    readString o key old set = old := by
  unfold readString
  rw [h]
  rfl

theorem readNumber_number {α : Type} (h : o.get key = .number n) (old : α) (set : Int → α) :
    readNumber o key old set = set n := by
  unfold readNumber
  rw [h]
  rfl

theorem readNumber_bool {α : Type} {b : Bool} (h : o.get key = .bool b) (old : α) (set : Int → α) :
    readNumber o key old set = old := by
  unfold readNumber
  rw [h]
  rfl

theorem readPorts_eq_ok_iff {p p' : RParam} (h : o.get "ports" = .string s) :
    readPorts o p = .ok p' ↔
      ∃ ports, RPortList.fromString s = .ok (some ports) ∧ p' = { p with capPorts := ports } := by
  unfold readPorts
  rw [readString_string h, bind_eq_ok]
  constructor
  · rintro ⟨ports, hports, hp⟩
    cases ports with
    | none => cases hp
    | some ports => exact ⟨ports, hports, (Except.ok.inj hp).symm⟩
  · rintro ⟨ports, hports, rfl⟩
    exact ⟨some ports, hports, rfl⟩

theorem readAddr_eq_ok_iff {what : String} {p p' : RParam} {port : UInt16} {usePort : Bool}
    {set : String → UInt16 → RParam} (h : o.get key = .string s) :
    readAddr o key what p port usePort set = .ok p' ↔
      ∃ ip port', parseAddr s port usePort = .ok (true, ip, port') ∧ p' = set ip port' := by
  unfold readAddr
  rw [readString_string h, bind_eq_ok]
  constructor
  · rintro ⟨⟨ok, ip, port'⟩, haddr, hp⟩
    cases ok with
    | false => cases hp
    | true => exact ⟨ip, port', haddr, (Except.ok.inj hp).symm⟩
  · rintro ⟨ip, port', haddr, rfl⟩
    exact ⟨(true, ip, port'), haddr, rfl⟩

theorem readType_string {p : RParam} (h : o.get "type" = .string s) (hne : typeOfStr s ≠ 0) :
    readType o p = .ok { p with type := typeOfStr s } := by
  unfold readType
  rw [readString_string h]
  exact if_neg hne

end Read

section Members

variable (c : RConfig)

theorem get_dev : c.paramToJson.get "dev" = .string c.param.dev := by
  simp [paramToJson, Json.get, List.lookup_cons]

theorem get_lcapIp : c.paramToJson.get "lcapIp" = .string c.param.selfCapIp := by
  simp [paramToJson, Json.get, List.lookup_cons]

theorem get_ports : c.paramToJson.get "ports" = .string c.param.capPorts.toString := by
  simp [paramToJson, Json.get, List.lookup_cons]

theorem get_unPath : c.paramToJson.get "unPath" = .string c.param.selfUnPath := by
  simp [paramToJson, Json.get, List.lookup_cons]

theorem get_ludp : c.paramToJson.get "ludp" = .string c.ludp := by
  simp [paramToJson, Json.get, List.lookup_cons]

theorem get_taddr : c.paramToJson.get "taddr" = .string c.taddr := by
  simp [paramToJson, Json.get, List.lookup_cons]

theorem get_duration :
    c.paramToJson.get "duration" = .number c.param.appKeepAliveSec.toInt32.toInt := by
  simp [paramToJson, Json.get, List.lookup_cons]

theorem get_hash : c.paramToJson.get "hash" = .string c.param.hashKey := by
  simp [paramToJson, Json.get, List.lookup_cons]

theorem get_type : c.paramToJson.get "type" = .string (strOfType c.param.type) := by
  simp [paramToJson, Json.get, List.lookup_cons]

theorem get_cap_timeout : c.paramToJson.get "cap_timeout" = .number c.param.cap_timeout.toNat := by
  simp [paramToJson, Json.get]

theorem get_keepalive : c.paramToJson.get "keepalive" = .number c.param.keepAliveIntervalSec := by
  simp [paramToJson, Json.get, List.lookup_cons]

end Members

theorem ofInt_duration (sec : UInt32) : UInt32.ofInt sec.toInt32.toInt = sec := by
  have hsec := sec.toNat_lt
  have hint : sec.toInt32.toInt =
      if 2 * sec.toNat < 2 ^ 32 then (sec.toNat : Int) else (sec.toNat : Int) - 2 ^ 32 :=
    BitVec.toInt_eq_toNat_cond _
  apply UInt32.toNat_inj.mp
  rw [UInt32.ofInt, hint, UInt32.toNat_ofNat']
  split <;> omega

/-- What is read back into `p`, once the two formats have been parsed. -/
def readBack (c : RConfig) (p : RParam) (ports : RPortList) (lip : String) (lport : UInt16)
    (tip : String) (tport : UInt16) : RParam :=
  { p with
    dev := c.param.dev
    selfUnPath := c.param.selfUnPath
    localUdpIp := lip
    localUdpPort := lport
    selfCapIp := c.param.selfCapIp
    capPorts := ports
    targetIp := tip
    targetPort := tport
    appKeepAliveSec := c.param.appKeepAliveSec
    hashKey := c.param.hashKey
    type := c.param.type
    keepAliveIntervalSec := c.param.keepAliveIntervalSec }

/-- The parameters are read exactly if the ports and the two addresses are. -/
theorem parseParam_eq_ok_iff (env : ConfEnv) (c : RConfig) (p p' : RParam)
    (htype : typeOfStr (strOfType c.param.type) = c.param.type) (hne : c.param.type ≠ 0) :
    parseParam env c.isServer p c.paramToJson = .ok p' ↔
      ∃ ports lip lport tip tport,
        RPortList.fromString c.param.capPorts.toString = .ok (some ports) ∧
        parseAddr c.ludp p.localUdpPort (!c.isServer) = .ok (true, lip, lport) ∧
        parseAddr c.taddr p.targetPort c.isServer = .ok (true, tip, tport) ∧
        p' = readBack c p ports lip lport tip tport := by
  have hdev : (c.paramToJson.get "dev").isString = true := by
    rw [get_dev]
    rfl
  have htype' : typeOfStr (strOfType c.param.type) ≠ 0 := by
    rw [htype]
    exact hne
  unfold parseParam
  simp only [readString_string (get_dev c), readString_string (get_lcapIp c), hdev, if_true,
    readString_string (get_unPath c), readString_string (get_hash c), readCapTimeout,
    readString_number (get_cap_timeout c), readNumber_number (get_duration c),
    readNumber_number (get_keepalive c), readType_string (get_type c) htype', htype, ofInt_duration,
    ok_bind, bind_eq_ok, readPorts_eq_ok_iff (get_ports c), readAddr_eq_ok_iff (get_ludp c),
    readAddr_eq_ok_iff (get_taddr c)]
  constructor
  · rintro ⟨p₁, ⟨ports, hports, rfl⟩, p₂, ⟨lip, lport, hl, rfl⟩, p₃, ⟨tip, tport, ht, rfl⟩, hp⟩
    exact ⟨ports, lip, lport, tip, tport, hports, hl, ht, (Except.ok.inj hp).symm⟩
  · rintro ⟨ports, lip, lport, tip, tport, hports, hl, ht, rfl⟩
    exact ⟨_, ⟨ports, hports, rfl⟩, _, ⟨lip, lport, hl, rfl⟩, _, ⟨tip, tport, ht, rfl⟩, rfl⟩

theorem assert_eq_ok {q : Prop} [Decidable q] : Thrown.assert q = .ok () ↔ q := by
  unfold Thrown.assert
  by_cases hq : q <;> simp [hq]

theorem when_eq_ok {q : Prop} [Decidable q] {act : Except Thrown Unit} :
    Thrown.when q act = .ok () ↔ (q → act = .ok ()) := by
  unfold Thrown.when
  by_cases hq : q <;> simp [hq]

theorem unit_bind_eq_ok {α : Type} {act : Except Thrown Unit} {f : Unit → Except Thrown α} {a : α} :
    (act >>= f) = .ok a ↔ act = .ok () ∧ f () = .ok a := by
  rw [bind_eq_ok]
  constructor
  · rintro ⟨⟨⟩, hact, hf⟩
    exact ⟨hact, hf⟩
  · rintro ⟨hact, hf⟩
    exact ⟨(), hact, hf⟩

/-- What is needed of `CheckValidation`: the port of a client, and the type. -/
theorem of_checkValidation {env : ConfEnv} {c : RConfig} (h : checkValidation env c = .ok ()) :
    (c.isServer = false → c.param.localUdpPort ≠ 0) ∧
      (c.param.type = OM_PIPE_TCP ∨ c.param.type = OM_PIPE_UDP ∨ c.param.type = OM_PIPE_ALL) := by
  unfold checkValidation at h
  simp only [unit_bind_eq_ok, assert_eq_ok, when_eq_ok] at h
  obtain ⟨-, -, hport, -, -, -, -, -, -, -, -, htype, -⟩ := h
  refine ⟨fun hc => hport ?_, htype⟩
  simp [hc]

theorem type_round_trip {type : Int}
    (h : type = OM_PIPE_TCP ∨ type = OM_PIPE_UDP ∨ type = OM_PIPE_ALL) :
    typeOfStr (strOfType type) = type ∧ type ≠ 0 := by
  rcases h with rfl | rfl | rfl <;> decide

/-- The configuration that was read, as far as it was written. -/
structure Reproduces (c c' : RConfig) : Prop where
  daemon : c'.isDaemon = c.isDaemon
  verbose : c'.log_level = .verbose ↔ c.log_level = .verbose
  log : c'.log_path = c.log_path
  dev : c'.param.dev = c.param.dev
  unPath : c'.param.selfUnPath = c.param.selfUnPath
  ludp : c'.param.localUdpIp = c.param.localUdpIp ∧
    (c.isServer = false → c'.param.localUdpPort = c.param.localUdpPort)
  lcapIp : c'.param.selfCapIp = c.param.selfCapIp
  ports : c'.param.capPorts = c.param.capPorts
  taddr : c'.param.targetIp = c.param.targetIp ∧
    (c.isServer = true → c'.param.targetPort = c.param.targetPort)
  duration : c'.param.appKeepAliveSec = c.param.appKeepAliveSec
  type : c'.param.type = c.param.type
  hash : c'.param.hashKey = c.param.hashKey
  keepalive : c'.param.keepAliveIntervalSec = c.param.keepAliveIntervalSec
  cap_timeout : c'.param.cap_timeout = c.param.cap_timeout

/-- `daemon` and `cap_timeout` have the values of a new configuration, the addresses have no colon of
    their own, a server has a target port, and the ranges of ports are in order. -/
structure Writable (nndebug : Bool) (c : RConfig) : Prop where
  daemon : c.isDaemon = nndebug
  cap_timeout : c.param.cap_timeout = 10
  ludp : ':' ∉ c.param.localUdpIp.toList
  taddr : ':' ∉ c.param.targetIp.toList
  port : c.isServer = true → c.param.targetPort ≠ 0
  ranges : c.param.capPorts.RangesOk

theorem parseAddr_host_iff {addr ip : String} {old port : UInt16} :
    parseAddr addr old false = .ok (true, ip, port) ↔ ip = hostPart addr ∧ port = old := by
  rw [parseAddr_host]
  simp [eq_comm]

theorem parseAddr_text_iff {ip ip' : String} {port old port' : UInt16} :
    parseAddr (addrText ip port) old true = .ok (true, ip', port') ↔
      ':' ∉ ip.toList ∧ port ≠ 0 ∧ ip' = ip ∧ port' = port := by
  by_cases hc : ':' ∈ ip.toList
  · obtain ⟨ip₁, port₁, hfalse⟩ := parseAddr_text_colon ip port old hc
    rw [hfalse]
    simp [hc]
  · rw [parseAddr_text ip port old hc]
    simp only [Except.ok.injEq, Prod.mk.injEq, decide_eq_true_eq]
    constructor
    · rintro ⟨hne, rfl, rfl⟩
      exact ⟨hc, hne, rfl, rfl⟩
    · rintro ⟨-, hne, rfl, rfl⟩
      exact ⟨hne, rfl, rfl⟩

/-- A new configuration with everything that is read. -/
theorem parseJsonString_eq_ok_iff {env : ConfEnv} {nndebug : Bool} {c c' : RConfig} {err : String}
    (hjson : env.parse (env.dump c.toJson) = (c.toJson, "")) :
    parseJsonString env (RConfig.new nndebug c.isServer) (env.dump c.toJson) = .ok (c', err) ↔
      ∃ p', parseParam env c.isServer {} c.paramToJson = .ok p' ∧ err = "" ∧
        c' = { RConfig.new nndebug c.isServer with
          log_level := if c.log_level = .verbose then .verbose else .debug
          log_path := c.log_path
          param := p' } := by
  have hdaemon : c.toJson.get "daemon" = .bool c.isDaemon := by simp [toJson, Json.get]
  have hlog : c.toJson.get "log" = .string c.log_path := by simp [toJson, Json.get, List.lookup_cons]
  have hparam : c.toJson.get "param" = c.paramToJson := by simp [toJson, Json.get, List.lookup_cons]
  have hverbose : c.toJson.get "verbose" = .bool (c.log_level = .verbose) := by
    simp [toJson, Json.get, List.lookup_cons]
  unfold parseJsonString
  simp only [hjson, readNumber_bool hdaemon, readString_string hlog, hparam, hverbose]
  constructor
  · intro h
    obtain ⟨p', hp, hc⟩ := bind_eq_ok.mp h
    refine ⟨p', hp, ?_⟩
    cases hc
    simp [Json.isBool, Json.boolValue]
  · rintro ⟨p', hp, rfl, rfl⟩
    refine bind_eq_ok.mpr ⟨p', hp, ?_⟩
    simp [Json.isBool, Json.boolValue, pure, Except.pure]

/-- An address is read as it was written, with its port or without, exactly if it has no colon and its
    port is not 0. -/
theorem addr_read_iff (ip : String) (port old : UInt16) (usePort : Bool) :
    (∃ ip' port', parseAddr (if usePort then addrText ip port else ip) old usePort =
        .ok (true, ip', port') ∧ ip' = ip ∧ (usePort = true → port' = port)) ↔
      ':' ∉ ip.toList ∧ (usePort = true → port ≠ 0) := by
  cases usePort with
  | true =>
    rw [if_pos rfl]
    constructor
    · rintro ⟨ip', port', hread, -⟩
      obtain ⟨hc, hne, -⟩ := parseAddr_text_iff.mp hread
      exact ⟨hc, fun _ => hne⟩
    · rintro ⟨hc, hne⟩
      exact ⟨ip, port, parseAddr_text_iff.mpr ⟨hc, hne rfl, rfl, rfl⟩, rfl, fun _ => rfl⟩
  | false =>
    rw [if_neg (by decide)]
    constructor
    · rintro ⟨ip', port', hread, rfl, -⟩
      refine ⟨(hostPart_eq_self_iff _).mp (parseAddr_host_iff.mp hread).1.symm, ?_⟩
      rintro ⟨⟩
    · rintro ⟨hc, -⟩
      refine ⟨ip, old, parseAddr_host_iff.mpr ⟨?_, rfl⟩, rfl, ?_⟩
      · exact ((hostPart_eq_self_iff ip).mpr hc).symm
      · rintro ⟨⟩

theorem ludp_eq (c : RConfig) : c.ludp =
    if !c.isServer then addrText c.param.localUdpIp c.param.localUdpPort else c.param.localUdpIp := by
  unfold ludp
  cases c.isServer <;> rfl

theorem fromString_eq_some_iff {list ports : RPortList} :
    RPortList.fromString list.toString = .ok (some ports) ↔ list.RangesOk ∧ ports = list := by
  rw [RPortList.fromString_toString]
  by_cases hr : list.RangesOk
  · simp [hr, eq_comm]
  · simp [hr]

/-- A configuration that is valid is read back from its own text, with every value that was written,
    exactly if it is one of the writable ones. -/
theorem round_trip_iff (env : ConfEnv) (nndebug : Bool) (c : RConfig)
    (hvalid : checkValidation env c = .ok ())
    (hjson : env.parse (env.dump c.toJson) = (c.toJson, "")) :
    (∃ c', parseJsonString env (RConfig.new nndebug c.isServer) (env.dump c.toJson) = .ok (c', "") ∧
      Reproduces c c') ↔ Writable nndebug c := by
  obtain ⟨hport, htype⟩ := of_checkValidation hvalid
  obtain ⟨htype, hne⟩ := type_round_trip htype
  simp only [parseJsonString_eq_ok_iff hjson, parseParam_eq_ok_iff env c _ _ htype hne,
    fromString_eq_some_iff, ludp_eq]
  constructor
  · rintro ⟨c', ⟨p', ⟨ports, lip, lport, tip, tport, ⟨hranges, -⟩, hl, ht, rfl⟩, -, rfl⟩, hrep⟩
    have hludp := (addr_read_iff c.param.localUdpIp c.param.localUdpPort _ (!c.isServer)).mp
      ⟨lip, lport, hl, hrep.ludp.1, fun hs => hrep.ludp.2 (by simpa using hs)⟩
    have htaddr := (addr_read_iff c.param.targetIp c.param.targetPort _ c.isServer).mp
      ⟨tip, tport, ht, hrep.taddr⟩
    exact ⟨hrep.daemon.symm, hrep.cap_timeout.symm, hludp.1, htaddr.1, htaddr.2, hranges⟩
  · intro hw
    obtain ⟨lip, lport, hl, hlip, hlport⟩ :=
      (addr_read_iff c.param.localUdpIp c.param.localUdpPort 0 (!c.isServer)).mpr
        ⟨hw.ludp, fun hs => hport (by simpa using hs)⟩
    obtain ⟨tip, tport, ht, htip⟩ :=
      (addr_read_iff c.param.targetIp c.param.targetPort 0 c.isServer).mpr ⟨hw.taddr, hw.port⟩
    refine ⟨_, ⟨_, ⟨c.param.capPorts, lip, lport, tip, tport, ⟨hw.ranges, rfl⟩, hl, ht, rfl⟩, trivial,
      rfl⟩, ?_⟩
    have hverbose : (if c.log_level = .verbose then Severity.verbose else .debug) = .verbose ↔
        c.log_level = .verbose := by
      by_cases hv : c.log_level = .verbose <;> simp [hv]
    exact {
      daemon := hw.daemon.symm
      verbose := hverbose
      log := rfl
      dev := rfl
      unPath := rfl
      ludp := ⟨hlip, fun hs => hlport (by simp [hs])⟩
      lcapIp := rfl
      ports := rfl
      taddr := ⟨htip.1, htip.2⟩
      duration := rfl
      type := rfl
      hash := rfl
      keepalive := rfl
      cap_timeout := hw.cap_timeout.symm }

section Examples

/-- A client with the default values, but for the timeout. -/
def clientConf (cap_timeout : UInt16) : RConfig := {
  isDaemon := false
  param := {
    dev := "eth0"
    localUdpIp := "127.0.0.1"
    localUdpPort := 30000
    selfCapIp := "192.168.3.2"
    targetIp := "8.8.8.8"
    selfCapInt := 33794240
    targetCapInt := 134744072
    id := ⟨[1, 2, 3, 4, 5, 6, 7, 8], rfl⟩
    cap_timeout := cap_timeout } }

/-- Its text. -/
def clientText (cap_timeout : UInt16) : String :=
  "\x7b\"daemon\": false, \"log\": \"/var/log/rsock/rsock.log\", \"param\": \x7b\"cap_timeout\": " ++
    Nat.repr cap_timeout.toNat ++ ", \"dev\": \"eth0\", \"duration\": 600, \"hash\": \"hello135\", " ++
    "\"keepalive\": 4, \"lcapIp\": \"192.168.3.2\", \"ludp\": \"127.0.0.1:30000\", " ++
    "\"ports\": \"10001-10010\", \"taddr\": \"8.8.8.8\", \"type\": \"tcp\", \"unPath\": \"\"\x7d, " ++
    "\"server\": false, \"verbose\": false\x7d"

/-- A host with one interface. -/
def clientEnv (cap_timeout : UInt16) : ConfEnv where
  devWithIpv4 ip := if ip = "192.168.3.2" then some "eth0" else none
  dump _ := clientText cap_timeout
  parse s :=
    if s = clientText cap_timeout then ((clientConf cap_timeout).toJson, "")
    else (.null, "unexpected text")

theorem clientEnv_parse (cap_timeout : UInt16) :
    (clientEnv cap_timeout).parse ((clientEnv cap_timeout).dump (clientConf cap_timeout).toJson) =
      ((clientConf cap_timeout).toJson, "") := by
  simp [clientEnv]

theorem writable_clientConf : Writable false (clientConf 10) where
  daemon := rfl
  cap_timeout := rfl
  ludp := by decide +kernel
  taddr := by decide +kernel
  port := by
    rintro ⟨⟩
  ranges := by decide +kernel

/-- The default timeout is read back. -/
theorem round_trip_default_client : ∃ c',
    parseJsonString (clientEnv 10) (RConfig.new false false) (clientText 10) = .ok (c', "") ∧
      Reproduces (clientConf 10) c' :=
  (round_trip_iff (clientEnv 10) false (clientConf 10) (by decide +kernel)
    (clientEnv_parse 10)).mpr writable_clientConf

/-- A timeout of 20 is valid and written as a number, which is not looked for. -/
theorem cap_timeout_lost :
    checkValidation (clientEnv 20) (clientConf 20) = .ok () ∧
      (clientEnv 20).parse ((clientEnv 20).dump (clientConf 20).toJson) =
        ((clientConf 20).toJson, "") ∧
      ¬∃ c', parseJsonString (clientEnv 20) (RConfig.new false (clientConf 20).isServer)
          ((clientEnv 20).dump (clientConf 20).toJson) = .ok (c', "") ∧
        Reproduces (clientConf 20) c' := by
  refine ⟨by decide +kernel, clientEnv_parse 20, ?_⟩
  rintro ⟨c', hread, hrep⟩
  obtain ⟨p', hparam, -, rfl⟩ := (parseJsonString_eq_ok_iff (clientEnv_parse 20)).mp hread
  obtain ⟨ports, lip, lport, tip, tport, -, -, -, rfl⟩ :=
    (parseParam_eq_ok_iff _ (clientConf 20) _ _ rfl (by decide)).mp hparam
  have hten : (10 : UInt16) = 20 := hrep.cap_timeout
  exact absurd hten (by decide)

end Examples

end RConfig

end Rsock
