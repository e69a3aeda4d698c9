import BoolSearch.Json.Printer
import BoolSearch.Json.Reader
import BoolSearch.Proofs.Lookahead
import Mathlib.Data.List.Forall2

namespace BoolSearch.Json

variable {strict : Bool} {text rest : List Char} {c : Char} {n : Nat}

theorem hexValue?_hexDigit (h : n < 16) : hexValue? (hexDigit n) = some n := by
  have all : ∀ n < 16, hexValue? (hexDigit n) = some n := by decide
  exact all n h

theorem stringRest_backslash (h : escapeSequence strict text = .ok (c, rest)) :
    stringRest strict ('\\' :: text) = (stringRest strict rest).map (c :: ·) := by
  rw [stringRest, if_neg (by decide), if_pos rfl]
  split
  case h_1 e => simp [h] at e
  case h_2 e =>
    rw [h] at e
    cases e
    rfl

theorem escapeSequence_short {d : Char} (hd : d ≠ 'u') (h : shortEscape? d = some c) :
    escapeSequence strict (d :: text) = .ok (c, text) := by
  unfold escapeSequence
  split
  case h_1 => contradiction
  case h_2 e =>
    cases e
    contradiction
  case h_3 e =>
    cases e
    rw [h]

theorem hex4_of_lt (h : n < 256) :
    hex4 ('0' :: '0' :: hexDigit (n / 16) :: hexDigit (n % 16) :: text) = .ok (n, text) := by
  have zero : hexValue? '0' = some 0 := rfl
  have high : hexValue? (hexDigit (n / 16)) = some (n / 16) := hexValue?_hexDigit (by omega)
  have low : hexValue? (hexDigit (n % 16)) = some (n % 16) := hexValue?_hexDigit (by omega)
  have number : n / 16 * 16 + n % 16 = n := by omega
  simp [hex4, zero, high, low, number]

theorem escapeSequence_control (h : c.toNat < 0x20) :
    escapeSequence strict
      ('u' :: '0' :: '0' :: hexDigit (c.toNat / 16) :: hexDigit (c.toNat % 16) :: text) =
        .ok (c, text) := by
  have high : isHighSurrogate c.toNat = false := by simp [isHighSurrogate]; omega
  have low : isLowSurrogate c.toNat = false := by simp [isLowSurrogate]; omega
  rw [escapeSequence, hex4_of_lt (by omega)]
  simp [Scanned.andThen, high, low, Char.ofNat_toNat]

-- How a character is written in a string: behind a backslash, by a character that stands for it or
-- in hexadecimal digits, or else as it is.
inductive Escaped (c : Char) : List Char → Prop
  | short {d : Char} (other : d ≠ 'u') (visible : 0x20 ≤ d.toNat)
    (stands : shortEscape? d = some c) : Escaped c ['\\', d]
  | control (h : c.toNat < 0x20) :
    Escaped c ['\\', 'u', '0', '0', hexDigit (c.toNat / 16), hexDigit (c.toNat % 16)]
  | plain (quote : c ≠ '"') (backslash : c ≠ '\\') (visible : 0x20 ≤ c.toNat) : Escaped c [c]

theorem escaped_escape (c : Char) : Escaped c (escape c) := by
  have short {c d : Char} (h : d ≠ 'u' ∧ ' ' ≤ d ∧ shortEscape? d = some c) :
      Escaped c ['\\', d] :=
    .short h.1 (Char.le_def.mp h.2.1) h.2.2
  unfold escape
  split
  case isTrue marked =>
    simp only [Bool.or_eq_true, decide_eq_true_eq] at marked
    obtain rfl | rfl := marked <;> exact short (by decide)
  case isFalse ordinary =>
    split
    case isTrue h => exact h ▸ short (by decide)
    split
    case isTrue h => exact h ▸ short (by decide)
    split
    case isTrue h => exact h ▸ short (by decide)
    split
    case isTrue h => exact h ▸ short (by decide)
    split
    case isTrue h => exact h ▸ short (by decide)
    split
    case isTrue h  => exact .control h
    case isFalse h =>
      simp only [Bool.or_eq_true, decide_eq_true_eq, not_or] at ordinary
      exact .plain ordinary.1 ordinary.2 (Nat.not_lt.mp h)

-- Each character is read back from its escape.
theorem Escaped.stringRest {written : List Char} (h : Escaped c written) (text : List Char) :
    stringRest strict (written ++ text) = (Json.stringRest strict text).map (c :: ·) := by
  cases h
  case short other _ stands => exact stringRest_backslash (escapeSequence_short other stands)
  case control h            => exact stringRest_backslash (escapeSequence_control h)
  case plain quote backslash visible =>
    rw [List.singleton_append, Json.stringRest, if_neg quote, if_neg backslash,
      if_neg (Nat.not_lt.mpr visible)]

theorem stringRest_flatMap_escape (text rest : List Char) :
    stringRest strict (text.flatMap escape ++ '"' :: rest) = .ok (text, rest) := by
  induction text
  case nil => simp [stringRest]
  case cons c text hi =>
    rw [List.flatMap_cons, List.append_assoc, (escaped_escape c).stringRest, hi]
    rfl

-- Text behind which a number does not go on.
def Delimited (rest : List Char) : Prop :=
  ∀ c ∈ rest.head?, c.isDigit = false ∧ c ≠ '.' ∧ c ≠ 'e' ∧ c ≠ 'E'

theorem delimited_nil : Delimited [] :=
  nofun

theorem delimited_cons (h : c = ',' ∨ c = ']' ∨ c = '}') : Delimited (c :: rest) := by
  rintro _ ⟨⟩
  obtain rfl | rfl | rfl := h <;> decide

theorem decimal_ne_nil (n : Nat) : decimal n ≠ [] :=
  Nat.toDigits_ne_nil

theorem exists_decimal (n : Nat) : ∃ c digits, decimal n = c :: digits ∧ c.isDigit := by
  have ⟨c, digits, e⟩ := List.exists_cons_of_ne_nil (decimal_ne_nil n)
  have hm : c ∈ decimal n := by simp [e]
  exact ⟨c, digits, e, isDigit_of_mem_decimal hm⟩

-- There is no zero in front of a number with several digits.
theorem eq_nil_of_decimal (n : Nat) : ∀ digits, decimal n = '0' :: digits → digits = [] := by
  induction n using Nat.strongRecOn
  case ind n hi =>
    intro digits h
    by_cases hn : n < 10
    case pos =>
      rw [decimal, Nat.toDigits_of_lt_base hn] at h
      exact (List.cons.inj h).2.symm
    case neg =>
      rw [decimal, Nat.toDigits_of_base_le (by decide) (Nat.le_of_not_lt hn), ← decimal] at h
      have ⟨c, leading, e⟩ := List.exists_cons_of_ne_nil (decimal_ne_nil (n / 10))
      rw [e] at h
      cases (List.cons.inj h).1
      cases hi (n / 10) (by omega) leading e
      have zero : n / 10 = 0 := by rw [← ofDecimal_decimal (n / 10), e]; rfl
      omega

section Numbers

variable (hr : Delimited rest)
include hr

theorem digits_decimal (n : Nat) :
    Numeral.digits strict (decimal n ++ rest) = .ok (decimal n, rest) := by
  have run : ∀ c ∈ decimal n, c.isDigit := fun c => isDigit_of_mem_decimal
  have stop : ∀ c ∈ rest.head?, c.isDigit = false := fun c hc => (hr c hc).1
  rw [Numeral.digits, takeWhile_run run stop, dropWhile_run run stop]
  split
  case h_1 e => exact absurd e (decimal_ne_nil n)
  case h_2   => rfl

theorem wholePart_decimal (n : Nat) :
    Numeral.wholePart strict (decimal n ++ rest) = .ok (decimal n, rest) := by
  rw [Numeral.wholePart, digits_decimal hr, Scanned.andThen, if_neg]
  rintro ⟨zero, several⟩
  obtain ⟨digits, e⟩ := List.head?_eq_some_iff.mp zero
  rw [e, eq_nil_of_decimal n digits e] at several
  exact several rfl

theorem unsigned_decimal (n : Nat) : Numeral.unsigned strict false (decimal n ++ rest) =
    .ok (⟨false, decimal n, [], none⟩, rest) := by
  have fraction : Numeral.fractionPart strict rest = .ok ([], rest) := by
    rw [Numeral.fractionPart.eq_def]
    split
    case h_1 => exact absurd rfl (hr '.' rfl).2.1
    case h_2 => rfl
  have exponent : Numeral.exponentPart strict rest = .ok (none, rest) := by
    rw [Numeral.exponentPart.eq_def]
    split
    case h_1   => rfl
    case h_2 c _ =>
      obtain ⟨_, _, small, large⟩ := hr c rfl
      rw [if_neg (not_or.mpr ⟨small, large⟩)]
  rw [Numeral.unsigned, wholePart_decimal hr]
  simp only [Scanned.andThen, fraction, exponent, Scanned.map]

theorem number_decimal (h : n < wordLimit) :
    number strict (decimal n ++ rest) = .ok (nat n, rest) := by
  have scan : Numeral.scan strict (decimal n ++ rest) =
      .ok (⟨false, decimal n, [], none⟩, rest) := by
    rw [Numeral.scan.eq_def]
    split
    case h_1 e =>
      have ⟨c, digits, ed, digit⟩ := exists_decimal n
      rw [ed] at e
      cases e
      exact absurd digit (by decide)
    case h_2 => exact unsigned_decimal hr n
  have plain : Numeral.plain? ⟨false, decimal n, [], none⟩ = some n := by
    simp [Numeral.plain?, Nat.not_le.mpr h]
  rw [number, scan, Scanned.andThen, plain]

end Numbers

-- What is written can be read back: all numbers fit into 64 bits, and at most `room` arrays and
-- objects lie one in the other.
inductive Fits : Nat → Json → Prop
  | null {room : Nat} : Fits room null
  | bool {room : Nat} (value : Bool) : Fits room (bool value)
  | nat {room n : Nat} (small : n < wordLimit) : Fits room (nat n)
  | str {room : Nat} (text : List Char) : Fits room (str text)
  | arr {room : Nat} {items : List Json} (inside : ∀ item ∈ items, Fits room item) :
    Fits (room + 1) (arr items)
  | obj {room : Nat} {members : List (List Char × Json)}
    (inside : ∀ member ∈ members, Fits room member.2) : Fits (room + 1) (obj members)

variable {room room' : Nat} {value : Json}

theorem Fits.mono (h : Fits room value) (hr : room ≤ room') : Fits room' value := by
  induction h generalizing room'
  case null      => exact .null
  case bool b    => exact .bool b
  case nat small => exact .nat small
  case str text  => exact .str text
  case arr hi =>
    match room' with
    | room' + 1 => exact .arr fun item hm => hi item hm (by omega)
  case obj hi =>
    match room' with
    | room' + 1 => exact .obj fun member hm => hi member hm (by omega)

def Starts (c : Char) : Prop :=
  c.isDigit ∨ c ∈ ['n', 't', 'f', '"', '[', '{']

theorem Starts.ne {d : Char} (h : Starts c)
    (hd : d ∈ [' ', '\t', '\n', '\r', ',', ':', ']', '}']) : c ≠ d := by
  rintro rfl
  simp only [List.mem_cons, List.not_mem_nil, or_false] at hd
  obtain rfl | rfl | rfl | rfl | rfl | rfl | rfl | rfl := hd <;> simp [Starts] at h

theorem Starts.not_space (h : Starts c) : isSpace c = false := by
  simp [isSpace, h.ne]

theorem Fits.exists_print (h : Fits room value) : ∃ c text, value.print = c :: text ∧ Starts c := by
  cases h
  case null => exact ⟨'n', _, rfl, .inr (by decide)⟩
  case bool b => cases b <;> exact ⟨_, _, rfl, .inr (by decide)⟩
  case nat n _ =>
    have ⟨c, digits, e, digit⟩ := exists_decimal n
    exact ⟨c, digits, e, .inl digit⟩
  case str => exact ⟨'"', _, rfl, .inr (by decide)⟩
  case arr => exact ⟨'[', _, rfl, .inr (by decide)⟩
  case obj => exact ⟨'{', _, rfl, .inr (by decide)⟩

@[simp] theorem skipSpace_cons (h : isSpace c = false) : skipSpace (c :: text) = c :: text := by
  simp [skipSpace, h]

theorem closing_cons (h : isSpace c = false) : closing c (c :: rest) = .ok rest := by
  simp [closing, h]

theorem colon_cons : colon (':' :: rest) = .ok rest :=
  closing_cons (by decide)

-- The text of the items behind the bracket or, if they are not the first ones, behind another item.
def printItemsFrom (isFirst : Bool) (items : List Json) : List Char :=
  if isFirst then printItems items else printMoreItems items

def printMembersFrom (isFirst : Bool) (members : List (List Char × Json)) : List Char :=
  if isFirst then printMembers members else printMoreMembers members

theorem print_arr_append (items : List Json) :
    print (.arr items) ++ rest = '[' :: (printItemsFrom true items ++ ']' :: rest) := by
  simp [print, printItemsFrom]

theorem print_obj_append (members : List (List Char × Json)) :
    print (.obj members) ++ rest = '{' :: (printMembersFrom true members ++ '}' :: rest) := by
  simp [print, printMembersFrom]

-- Does `read` read `a` from the text of the value, wherever that stands?
structure ReadsBack {α : Type} (read : List Char → Scanned α) (value : Json) (a : α) : Prop where
  fits : ∃ room, Fits room value
  reads : ∀ rest, Delimited rest → read (value.print ++ rest) = .ok (a, rest)

section Items

variable {α : Type} {read : List Char → Scanned α} {isFirst : Bool} {values : List Json}

theorem delimited_items : Delimited (printItemsFrom false values ++ ']' :: rest) := by
  cases values
  case nil  => exact delimited_cons (by simp)
  case cons => exact delimited_cons (by simp)

theorem nextItem_nil :
    nextItem isFirst (printItemsFrom isFirst [] ++ ']' :: rest) = .ok (.close (']' :: rest)) := by
  cases isFirst <;> simp [printItemsFrom, printItems, printMoreItems, nextItem, isSpace]

theorem Fits.nextItem_cons (h : Fits room value) :
    nextItem isFirst (printItemsFrom isFirst (value :: values) ++ rest) =
      .ok (.item (value.print ++ (printItemsFrom false values ++ rest))) := by
  have ⟨c, text, e, starts⟩ := h.exists_print
  have comma : isSpace ',' = false := by decide
  cases isFirst <;>
    simp [printItemsFrom, printItems, printMoreItems, nextItem, e, starts.not_space, starts.ne,
      comma]

theorem Fits.length_items_lt (h : Fits room value) :
    (printItemsFrom false values ++ rest).length <
      (printItemsFrom isFirst (value :: values) ++ rest).length := by
  have ⟨c, text, e, _⟩ := h.exists_print
  have length : 0 < value.print.length := by simp [e]
  cases isFirst <;>
    simp only [printItemsFrom, printItems, printMoreItems, Bool.false_eq_true, reduceIte,
      List.length_append, List.length_cons, List.cons_append] <;>
    omega

-- By induction on the items: each of them is read in front of the text of the others.
theorem items_printItemsFrom {results : List α}
    (h : List.Forall₂ (ReadsBack read) values results) (isFirst : Bool) :
    items read isFirst (printItemsFrom isFirst values ++ ']' :: rest) = .ok (results, rest) := by
  induction h generalizing isFirst
  case nil =>
    rw [items, nextItem_nil]
    simp [closing_cons, isSpace, Except.map]
  case cons value a values results head tail hi =>
    have ⟨room, fits⟩ := head.fits
    rw [items, fits.nextItem_cons]
    simp only [head.reads _ delimited_items, hi]
    rw [if_pos fits.length_items_lt]
    rfl

end Items

section Members

variable {read : List Char → Scanned Json} {isFirst : Bool} {name : List Char}
  {values : List (List Char × Json)}

theorem printString_append :
    printString text ++ rest = '"' :: (text.flatMap escape ++ '"' :: rest) := by
  simp [printString]

theorem nameAt_printString : nameAt strict (printString name ++ rest) = .ok (name, rest) := by
  rw [printString_append, nameAt, skipSpace_cons (by decide)]
  exact stringRest_flatMap_escape name rest

theorem delimited_members : Delimited (printMembersFrom false values ++ '}' :: rest) := by
  cases values
  case nil  => exact delimited_cons (by simp)
  case cons => exact delimited_cons (by simp)

theorem nextName_nil : nextName strict isFirst (printMembersFrom isFirst [] ++ '}' :: rest) =
    .ok (.close ('}' :: rest)) := by
  cases isFirst <;> simp [printMembersFrom, printMembers, printMoreMembers, nextName, isSpace]

theorem nextName_cons :
    nextName strict isFirst (printMembersFrom isFirst ((name, value) :: values) ++ rest) =
      .ok (.name name (':' :: (value.print ++ (printMembersFrom false values ++ rest)))) := by
  generalize hb : printMembersFrom false values ++ rest = behind
  have named : nameAt strict (printString name ++ ':' :: (value.print ++ behind)) =
      .ok (name, ':' :: (value.print ++ behind)) := nameAt_printString
  cases isFirst
  case false =>
    have e : printMembersFrom false ((name, value) :: values) ++ rest =
        ',' :: (printString name ++ ':' :: (value.print ++ behind)) := by
      simp [printMembersFrom, printMoreMembers, ← hb]
    rw [e]
    simp [nextName, isSpace, named, Except.bind]
  case true =>
    have e : printMembersFrom true ((name, value) :: values) ++ rest =
        printString name ++ ':' :: (value.print ++ behind) := by
      simp [printMembersFrom, printMembers, ← hb]
    rw [printString_append] at e named
    rw [e]
    simp [nextName, isSpace, named, Except.bind]

theorem length_members_lt : (printMembersFrom false values ++ rest).length <
    (printMembersFrom isFirst ((name, value) :: values) ++ rest).length := by
  cases isFirst <;> simp [printMembersFrom, printMembers, printMoreMembers, printString] <;> omega

theorem members_printMembersFrom (h : ∀ member ∈ values, ReadsBack read member.2 member.2)
    (isFirst : Bool) :
    members strict read isFirst (printMembersFrom isFirst values ++ '}' :: rest) =
      .ok (values, rest) := by
  induction values generalizing isFirst
  case nil =>
    rw [members, nextName_nil]
    simp [closing_cons, isSpace, Except.map]
  case cons member values hi =>
    obtain ⟨name, value⟩ := member
    have head := h (name, value) (by simp)
    have tail := hi fun member hm => h member (List.mem_cons_of_mem _ hm)
    rw [members, nextName_cons]
    simp only [colon_cons, head.reads _ delimited_members, tail]
    rw [if_pos length_members_lt]
    rfl

end Members

-- Who reads the parts of a value in which at most `room` arrays and objects lie one in the other.
def insideOf (strict : Bool) : Nat → Option (List Char → Scanned Json)
  | 0        => none
  | room + 1 => some (Json.value strict room)

theorem value_eq_valueWith (strict : Bool) (room : Nat) :
    Json.value strict room = valueWith strict (insideOf strict room) := by
  funext text
  cases room <;> rfl

theorem scalar_decimal (hr : Delimited rest) (h : n < wordLimit) :
    scalar strict (decimal n ++ rest) = .ok (nat n, rest) := by
  have number : number strict (decimal n ++ rest) = .ok (nat n, rest) := number_decimal hr h
  have ⟨c, digits, e, digit⟩ := exists_decimal n
  have ne : c ≠ 'n' ∧ c ≠ 't' ∧ c ≠ 'f' ∧ c ≠ '"' := by
    refine ⟨?_, ?_, ?_, ?_⟩ <;> rintro rfl <;> exact absurd digit (by decide)
  rw [e] at number ⊢
  simpa [scalar, ne, digit] using number

theorem Fits.scalar_print (h : Fits 0 value) (hr : Delimited rest) :
    scalar strict (value.print ++ rest) = .ok (value, rest) := by
  cases h
  case null      => simp [print, scalar, expect, Except.map]
  case bool b    => cases b <;> simp [print, scalar, expect, Except.map]
  case nat small => exact scalar_decimal hr small
  case str text  =>
    rw [print, printString_append]
    simp [scalar, stringRest_flatMap_escape, Scanned.map, Scanned.andThen]

theorem Fits.exists_scalar_print (h : Fits 0 value) :
    ∃ c text, value.print = c :: text ∧ isSpace c = false ∧ c ≠ '[' ∧ c ≠ '{' := by
  cases h
  case null => exact ⟨'n', _, rfl, by decide⟩
  case bool b => cases b <;> exact ⟨_, _, rfl, by decide⟩
  case str => exact ⟨'"', _, rfl, by decide⟩
  case nat n _ =>
    have ⟨c, digits, e, digit⟩ := exists_decimal n
    have starts : Starts c := .inl digit
    refine ⟨c, digits, e, starts.not_space, ?_, ?_⟩ <;> rintro rfl <;>
      exact absurd digit (by decide)

theorem Fits.value_scalar (h : Fits 0 value) (hr : Delimited rest) :
    Json.value strict room (value.print ++ rest) = .ok (value, rest) := by
  have scalar : scalar strict (value.print ++ rest) = .ok (value, rest) := h.scalar_print hr
  have ⟨c, text, e, space, bracket, brace⟩ := h.exists_scalar_print
  rw [value_eq_valueWith, valueWith]
  rw [e] at scalar ⊢
  rw [List.cons_append, skipSpace_cons space]
  simpa [bracket, brace] using scalar

theorem Fits.readsBack (h : Fits room value) : ReadsBack (Json.value strict room) value value := by
  refine ⟨⟨room, h⟩, ?_⟩
  induction h
  case null      => exact fun _ => Fits.null.value_scalar
  case bool b    => exact fun _ => (Fits.bool b).value_scalar
  case nat small => exact fun _ => (Fits.nat small).value_scalar
  case str text  => exact fun _ => (Fits.str text).value_scalar
  case arr room values inside hi =>
    intro rest _
    have back : List.Forall₂ (ReadsBack (Json.value strict room)) values values :=
      List.forall₂_same.mpr fun item hm => ⟨⟨room, inside item hm⟩, hi item hm⟩
    rw [print_arr_append, Json.value, valueWith, skipSpace_cons (by decide)]
    simp [items_printItemsFrom back, Scanned.map, Scanned.andThen]
  case obj room values inside hi =>
    intro rest _
    have back : ∀ member ∈ values, ReadsBack (Json.value strict room) member.2 member.2 :=
      fun member hm => ⟨⟨room, inside member hm⟩, hi member hm⟩
    rw [print_obj_append, Json.value, valueWith, skipSpace_cons (by decide)]
    simp [members_printMembersFrom back, Scanned.map, Scanned.andThen]

theorem length_print_le_items {item : Json} {items : List Json} {isFirst : Bool}
    (h : item ∈ items) : item.print.length ≤ (printItemsFrom isFirst items).length := by
  induction h generalizing isFirst
  case head =>
    cases isFirst
    case false => simp [printItemsFrom, printMoreItems, Nat.add_assoc]
    case true  => simp [printItemsFrom, printItems]
  case tail values _ hi =>
    have : item.print.length ≤ (printItemsFrom false values).length := hi
    simp only [printItemsFrom, Bool.false_eq_true, if_false] at this
    cases isFirst <;> simp [printItemsFrom, printItems, printMoreItems] <;> omega

theorem length_print_le_members {member : List Char × Json} {members : List (List Char × Json)}
    {isFirst : Bool} (h : member ∈ members) :
    member.2.print.length ≤ (printMembersFrom isFirst members).length := by
  induction h generalizing isFirst
  case head => cases isFirst <;> simp [printMembersFrom, printMembers, printMoreMembers] <;> omega
  case tail values _ hi =>
    have : member.2.print.length ≤ (printMembersFrom false values).length := hi
    simp only [printMembersFrom, Bool.false_eq_true, if_false] at this
    cases isFirst <;> simp [printMembersFrom, printMembers, printMoreMembers] <;> omega

-- No value is nested more deeply than its text is long.
theorem Fits.length (h : Fits room value) : Fits value.print.length value := by
  induction h
  case null      => exact .null
  case bool b    => exact .bool b
  case nat small => exact .nat small
  case str text  => exact .str text
  case arr items _ hi =>
    have e : (print (.arr items)).length = (printItemsFrom true items).length + 1 + 1 := by
      simp [print, printItemsFrom]
    rw [e]
    exact .arr fun item hm => (hi item hm).mono (Nat.le_succ_of_le (length_print_le_items hm))
  case obj members _ hi =>
    have e : (print (.obj members)).length = (printMembersFrom true members).length + 1 + 1 := by
      simp [print, printMembersFrom]
    rw [e]
    exact .obj fun member hm =>
      (hi member hm).mono (Nat.le_succ_of_le (length_print_le_members hm))

-- So it is passed over whole.
theorem Fits.skip_print (h : Fits room value) (hr : Delimited rest) :
    skip (value.print ++ rest) = .ok rest := by
  have fits : Fits (value.print ++ rest).length value := h.length.mono (by simp)
  rw [skip, fits.readsBack.reads rest hr]

end BoolSearch.Json
