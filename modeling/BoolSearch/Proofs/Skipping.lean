import BoolSearch.Json.Decoder
import BoolSearch.Proofs.JsonTexts
import Mathlib.Data.List.DropRight
import Mathlib.Tactic.SplitIfs

namespace BoolSearch.Json

variable {α β : Type} {strict : Bool} {text rest : List Char}

theorem Scanned.map_eq_ok_iff {f : α → β} {scanned : Scanned α} {b : β} :
    scanned.map f = .ok (b, rest) ↔ ∃ a, scanned = .ok (a, rest) ∧ f a = b := by
  unfold Scanned.map andThen
  cases scanned
  case error => simp
  case ok result =>
    obtain ⟨a, rest'⟩ := result
    simp only [Except.ok.injEq, Prod.mk.injEq]
    constructor
    case mp  => exact fun ⟨e, er⟩ => ⟨a, ⟨rfl, er⟩, e⟩
    case mpr => exact fun ⟨_, ⟨e, er⟩, ef⟩ => ⟨e ▸ ef, er⟩

theorem Scanned.map_of_eq_ok {scanned : Scanned α} {a : α} (h : scanned = .ok (a, rest))
    (f : α → β) : scanned.map f = .ok (f a, rest) :=
  map_eq_ok_iff.mpr ⟨a, h, rfl⟩

theorem Scanned.exists_of_bind_eq_ok {scanned : Except Fault α} {f : α → Except Fault β} {b : β}
    (h : scanned.bind f = .ok b) : ∃ a, scanned = .ok a ∧ f a = .ok b := by
  cases scanned
  case error => cases h
  case ok a  => exact ⟨a, rfl, h⟩

theorem Scanned.of_map_eq_ok {scanned : Except Fault (List Char)} {a a' : α}
    (h : scanned.map (a, ·) = .ok (a', rest)) : scanned = .ok rest ∧ a = a' := by
  cases scanned
  case error => cases h
  case ok =>
    cases h
    exact ⟨rfl, rfl⟩

section Lengths

theorem length_skipSpace_le (text : List Char) : (skipSpace text).length ≤ text.length :=
  (List.dropWhile_suffix _).length_le

theorem length_lt_of_skipSpace {c : Char} (h : skipSpace text = c :: rest) :
    rest.length < text.length := by
  have := length_skipSpace_le text
  rw [h, List.length_cons] at this
  omega

theorem closing_eq_ok_iff {bracket : Char} :
    closing bracket text = .ok rest ↔ skipSpace text = bracket :: rest := by
  unfold closing
  cases skipSpace text with
  | nil => simp
  | cons c after => by_cases hc : c = bracket <;> simp [hc]

theorem length_closing {bracket : Char} (h : closing bracket text = .ok rest) :
    rest.length < text.length :=
  length_lt_of_skipSpace (closing_eq_ok_iff.mp h)

theorem length_stringRest {string : List Char} (h : stringRest strict text = .ok (string, rest)) :
    rest.length < text.length := by
  fun_induction stringRest strict text generalizing string
  case case1 => cases h
  case case2 =>
    cases h
    exact Nat.lt_succ_self _
  case case3 => cases h
  case case4 escape _ hi =>
    obtain ⟨_, h, _⟩ := Scanned.map_eq_ok_iff.mp h
    have := length_escapeSequence escape
    have := hi h
    rw [List.length_cons]
    omega
  case case5 => cases h
  case case6 hi =>
    obtain ⟨_, h, _⟩ := Scanned.map_eq_ok_iff.mp h
    exact Nat.lt_succ_of_lt (hi h)

theorem length_nameAt {name : List Char} (h : nameAt strict text = .ok (name, rest)) :
    rest.length < text.length := by
  unfold nameAt at h
  split at h
  case h_1 => cases h
  case h_2 e =>
    split at h
    case isFalse => cases h
    case isTrue => exact Nat.lt_trans (length_stringRest h) (length_lt_of_skipSpace e)

theorem length_named {name : List Char} (h : (nameAt strict text).bind (fun (name, rest) =>
    .ok (NextName.name name rest)) = .ok (.name name rest)) : rest.length < text.length := by
  cases e : nameAt strict text with
  | error => simp [e, Except.bind] at h
  | ok result =>
    simp only [e, Except.bind, Except.ok.injEq, NextName.name.injEq] at h
    exact length_nameAt (e.trans (congrArg _ (Prod.ext h.1 h.2)))

theorem length_nextName {isFirst : Bool} {name : List Char}
    (h : nextName strict isFirst text = .ok (.name name rest)) : rest.length < text.length := by
  have le := length_skipSpace_le text
  unfold nextName at h
  split at h
  case h_1 => cases h
  case h_2 c after e =>
    rw [e, List.length_cons] at le
    split at h
    case isTrue => cases h
    split at h
    case isTrue =>
      have := length_named h
      rw [List.length_cons] at this
      omega
    split at h
    case isTrue =>
      have := length_named h
      omega
    case isFalse => cases h

theorem length_expect_le {expected : List Char} (h : expect expected text = .ok rest) :
    rest.length ≤ text.length := by
  fun_induction expect expected text
  case case1 =>
    cases h
    exact Nat.le_refl _
  case case2 => cases h
  case case3 hi => exact Nat.le_succ_of_le (hi h)
  case case4 => cases h

end Lengths

section Numbers

open Numeral

theorem length_digits {run : List Char} (h : digits strict text = .ok (run, rest)) :
    rest.length < text.length := by
  have whole : (text.takeWhile Char.isDigit ++ text.dropWhile Char.isDigit).length = _ :=
    congrArg List.length List.takeWhile_append_dropWhile
  unfold digits at h
  split at h
  case h_1 => cases h
  case h_2 ne =>
    cases h
    have := List.length_pos_iff.mpr ne
    rw [List.length_append] at whole
    omega

theorem length_wholePart {run : List Char} (h : wholePart strict text = .ok (run, rest)) :
    rest.length < text.length := by
  have ⟨run', rest', e, h⟩ := Scanned.eq_ok_of_andThen h
  split at h
  case isTrue => cases h
  case isFalse =>
    cases h
    exact length_digits e

theorem length_fractionPart_le {run : List Char} (h : fractionPart strict text = .ok (run, rest)) :
    rest.length ≤ text.length := by
  unfold fractionPart at h
  split at h
  case h_1 => exact Nat.le_of_lt (Nat.lt_succ_of_lt (length_digits h))
  case h_2 =>
    cases h
    exact Nat.le_refl _

theorem length_signed_le (text : List Char) : (signed text).2.length ≤ text.length := by
  unfold signed
  split <;> simp

theorem length_exponentPart_le {exponent : Option (Bool × List Char)}
    (h : exponentPart strict text = .ok (exponent, rest)) : rest.length ≤ text.length := by
  unfold exponentPart at h
  split at h
  case h_1 =>
    cases h
    exact Nat.le_refl _
  case h_2 c after =>
    split at h
    case isTrue =>
      obtain ⟨_, e, _⟩ := Scanned.map_eq_ok_iff.mp h
      have := length_digits e
      have := length_signed_le after
      rw [List.length_cons]
      omega
    case isFalse =>
      cases h
      exact Nat.le_refl _

theorem length_unsigned {negative : Bool} {numeral : Numeral}
    (h : unsigned strict negative text = .ok (numeral, rest)) : rest.length < text.length := by
  have ⟨whole, _, e, h⟩ := Scanned.eq_ok_of_andThen h
  have ⟨fraction, _, e', h⟩ := Scanned.eq_ok_of_andThen h
  have ⟨exponent, e'', _⟩ := Scanned.map_eq_ok_iff.mp h
  have := length_wholePart e
  have := length_fractionPart_le e'
  have := length_exponentPart_le e''
  omega

theorem length_number {value : Json} (h : number strict text = .ok (value, rest)) :
    rest.length < text.length := by
  have ⟨numeral, after, e, h⟩ := Scanned.eq_ok_of_andThen h
  have shorter : after.length < text.length := by
    unfold scan at e
    split at e
    case h_1 => exact Nat.lt_succ_of_lt (length_unsigned e)
    case h_2 => exact length_unsigned e
  split at h
  case h_1 =>
    cases h
    exact shorter
  case h_2 =>
    split at h
    case isTrue => cases h
    case isFalse =>
      cases h
      exact shorter

end Numbers

section Values

theorem length_scalar {value : Json} (h : scalar strict text = .ok (value, rest)) :
    rest.length < text.length := by
  unfold scalar at h
  split at h
  case h_1 => cases h
  case h_2 c after =>
    have word {expected : List Char} {value' : Json}
        (h : (expect expected after).map (value', ·) = .ok (value, rest)) :
        rest.length < (c :: after).length :=
      Nat.lt_succ_of_le (length_expect_le (Scanned.of_map_eq_ok h).1)
    split_ifs at h
    · exact word h
    · exact word h
    · exact word h
    · obtain ⟨_, e, _⟩ := Scanned.map_eq_ok_iff.mp h
      exact Nat.lt_succ_of_lt (length_stringRest e)
    · exact length_number h

-- The end of an array is seen at its bracket, and the end of an object at its brace.
theorem nextItem_eq_close_iff {isFirst : Bool} :
    nextItem isFirst text = .ok (.close rest) ↔
      ∃ after, skipSpace text = ']' :: after ∧ rest = ']' :: after := by
  unfold nextItem
  cases skipSpace text with
  | nil => simp
  | cons c after =>
    by_cases hc : c = ']'
    case pos =>
      simp only [hc, if_true, Except.ok.injEq, NextItem.close.injEq, List.cons.injEq, true_and,
        exists_eq_left']
      exact eq_comm
    case neg =>
      simp only [hc, if_false, List.cons.injEq, false_and, exists_false, iff_false]
      split_ifs
      · simp
      · split
        case h_1 => simp
        case h_2 => split_ifs <;> simp
      · simp

theorem named_ne_close : (nameAt strict text).bind (fun (name, rest) =>
    .ok (NextName.name name rest)) ≠ .ok (.close rest) := by
  cases nameAt strict text with
  | error => rintro ⟨⟩
  | ok    => rintro ⟨⟩

theorem nextName_eq_close_iff {isFirst : Bool} :
    nextName strict isFirst text = .ok (.close rest) ↔
      ∃ after, skipSpace text = '}' :: after ∧ rest = '}' :: after := by
  unfold nextName
  cases skipSpace text with
  | nil => simp
  | cons c after =>
    by_cases hc : c = '}'
    case pos =>
      simp only [hc, if_true, Except.ok.injEq, NextName.close.injEq, List.cons.injEq, true_and,
        exists_eq_left']
      exact eq_comm
    case neg =>
      simp only [hc, if_false, List.cons.injEq, false_and, exists_false, iff_false]
      split_ifs
      · exact named_ne_close
      · exact named_ne_close
      · rintro ⟨⟩

theorem length_items {read : List Char → Scanned α} {isFirst : Bool} {values : List α}
    (h : items read isFirst text = .ok (values, rest)) : rest.length < text.length := by
  fun_induction items read isFirst text generalizing values
  case case2 text after e =>
    obtain ⟨after, space, rfl⟩ := nextItem_eq_close_iff.mp e
    cases h
    exact length_lt_of_skipSpace space
  case case4 shorter hi =>
    have ⟨_, h, _⟩ := Scanned.map_eq_ok_iff.mp h
    exact Nat.lt_trans (hi h) shorter
  all_goals cases h

theorem length_members {read : List Char → Scanned α} {isFirst : Bool}
    {values : List (List Char × α)} (h : members strict read isFirst text = .ok (values, rest)) :
    rest.length < text.length := by
  fun_induction members strict read isFirst text generalizing values
  case case2 text after e =>
    obtain ⟨after, space, rfl⟩ := nextName_eq_close_iff.mp e
    cases h
    exact length_lt_of_skipSpace space
  case case5 shorter hi =>
    have ⟨_, h, _⟩ := Scanned.map_eq_ok_iff.mp h
    exact Nat.lt_trans (hi h) shorter
  all_goals cases h

-- Whatever is in an array or an object, its end is behind its start.
theorem length_value {room : Nat} {value : Json}
    (h : Json.value strict room text = .ok (value, rest)) :
    rest.length < text.length := by
  have inside {inside : Option (List Char → Scanned Json)}
      (h : valueWith strict inside text = .ok (value, rest)) : rest.length < text.length := by
    unfold valueWith at h
    split at h
    case h_1 => cases h
    case h_2 e =>
      have shorter := length_lt_of_skipSpace e
      have le := length_skipSpace_le text
      rw [e] at le
      split_ifs at h
      · split at h
        case h_1 => cases h
        case h_2 =>
          obtain ⟨_, e, _⟩ := Scanned.map_eq_ok_iff.mp h
          exact Nat.lt_trans (length_items e) shorter
      · split at h
        case h_1 => cases h
        case h_2 =>
          obtain ⟨_, e, _⟩ := Scanned.map_eq_ok_iff.mp h
          exact Nat.lt_trans (length_members e) shorter
      · exact Nat.lt_of_lt_of_le (length_scalar h) le
  cases room
  case zero => exact inside h
  case succ => exact inside h

theorem length_skip (h : skip text = .ok rest) : rest.length < text.length := by
  unfold skip at h
  split at h
  case h_1 => cases h
  case h_2 e =>
    cases h
    exact length_value e

end Values

section Lenient

-- A pair of surrogates stands for one character; each of them is passed over by itself.
theorem escapeSequence_lenient {c : Char} (h : escapeSequence true text = .ok (c, rest)) :
    (∃ c', escapeSequence false text = .ok (c', rest)) ∨
      ∃ c' c'' after, escapeSequence false text = .ok (c', '\\' :: after) ∧
        escapeSequence false after = .ok (c'', rest) := by
  have unpaired {n : Nat} {digits after : List Char} (h : hex4 digits = .ok (n, after)) :
      escapeSequence false ('u' :: digits) = .ok (Char.ofNat n, after) := by
    simp [escapeSequence, h, Scanned.andThen]
  unfold escapeSequence at h
  split at h
  case h_1 => cases h
  case h_2 digits =>
    obtain ⟨n, after, e, h⟩ := Scanned.eq_ok_of_andThen h
    split_ifs at h
    · unfold lowSurrogate at h
      split at h
      case h_1 digits' =>
        obtain ⟨low, after', e', h⟩ := Scanned.eq_ok_of_andThen h
        split at h
        case isTrue =>
          obtain ⟨_, rfl⟩ := Prod.mk.inj (Except.ok.inj h)
          exact .inr ⟨_, _, _, unpaired e, unpaired e'⟩
        case isFalse => cases h
      all_goals cases h
    · cases h
      exact .inl ⟨_, unpaired e⟩
  case h_3 other =>
    split at h
    case h_2 => cases h
    case h_1 e =>
      cases h
      exact .inl ⟨_, escapeSequence_short other e⟩

theorem stringRest_lenient {string : List Char} (h : stringRest true text = .ok (string, rest)) :
    ∃ string', stringRest false text = .ok (string', rest) := by
  generalize hs : true = strict at h
  fun_induction stringRest strict text generalizing string
  case case1 => cases h
  case case2 =>
    cases h
    exact ⟨[], by simp [stringRest]⟩
  case case3 => cases h
  case case4 escape _ hi =>
    subst hs
    obtain ⟨_, h, _⟩ := Scanned.map_eq_ok_iff.mp h
    obtain ⟨string', tail⟩ := hi h
    obtain ⟨c', e⟩ | ⟨c', c'', after, e, e'⟩ := escapeSequence_lenient escape
    case inl =>
      rw [stringRest_backslash e]
      exact ⟨_, Scanned.map_of_eq_ok tail _⟩
    case inr =>
      have second := Scanned.map_of_eq_ok tail (c'' :: ·)
      rw [← stringRest_backslash e'] at second
      rw [stringRest_backslash e]
      exact ⟨_, Scanned.map_of_eq_ok second _⟩
  case case5 => cases h
  case case6 quote backslash visible hi =>
    obtain ⟨_, h, _⟩ := Scanned.map_eq_ok_iff.mp h
    obtain ⟨string', tail⟩ := hi h
    rw [stringRest, if_neg quote, if_neg backslash, if_neg visible]
    exact ⟨_, Scanned.map_of_eq_ok tail _⟩

section Numbers

open Numeral

theorem digits_lenient {run : List Char} (h : digits true text = .ok (run, rest)) :
    digits false text = .ok (run, rest) := by
  unfold digits at h ⊢
  split at h
  case h_1 => cases h
  case h_2 => exact h

theorem wholePart_lenient {run : List Char} (h : wholePart true text = .ok (run, rest)) :
    wholePart false text = .ok (run, rest) := by
  have ⟨run', rest', e, h⟩ := Scanned.eq_ok_of_andThen h
  rw [wholePart, digits_lenient e]
  exact h

theorem fractionPart_lenient {run : List Char} (h : fractionPart true text = .ok (run, rest)) :
    fractionPart false text = .ok (run, rest) := by
  unfold fractionPart at h
  split at h
  case h_1 => exact digits_lenient h
  case h_2 other => rwa [fractionPart.eq_2 _ _ other]

theorem exponentPart_lenient {exponent : Option (Bool × List Char)}
    (h : exponentPart true text = .ok (exponent, rest)) :
    exponentPart false text = .ok (exponent, rest) := by
  cases text with
  | nil => exact h
  | cons c after =>
    simp only [exponentPart] at h ⊢
    split_ifs at h ⊢
    · obtain ⟨run, e, he⟩ := Scanned.map_eq_ok_iff.mp h
      exact Scanned.map_eq_ok_iff.mpr ⟨run, digits_lenient e, he⟩
    · exact h

theorem unsigned_lenient {negative : Bool} {numeral : Numeral}
    (h : unsigned true negative text = .ok (numeral, rest)) :
    unsigned false negative text = .ok (numeral, rest) := by
  have ⟨whole, _, e, h⟩ := Scanned.eq_ok_of_andThen h
  have ⟨fraction, _, e', h⟩ := Scanned.eq_ok_of_andThen h
  have ⟨exponent, e'', h⟩ := Scanned.map_eq_ok_iff.mp h
  simp [unsigned, wholePart_lenient e, fractionPart_lenient e', exponentPart_lenient e'',
    Scanned.andThen, Scanned.map, h]

theorem number_lenient {value : Json} (h : number true text = .ok (value, rest)) :
    number false text = .ok (value, rest) := by
  have ⟨numeral, after, e, h⟩ := Scanned.eq_ok_of_andThen h
  have scanned : scan false text = .ok (numeral, after) := by
    unfold scan at e ⊢
    split at e
    case h_1 => exact unsigned_lenient e
    case h_2 => exact unsigned_lenient e
  rw [number, scanned, Scanned.andThen]
  split at h
  case h_1 => exact h
  case h_2 =>
    split_ifs at h
    exact h

end Numbers

theorem scalar_lenient {value : Json} (h : scalar true text = .ok (value, rest)) :
    ∃ value', scalar false text = .ok (value', rest) := by
  cases text with
  | nil => cases h
  | cons c after =>
    simp only [scalar] at h ⊢
    split_ifs at h ⊢
    · exact ⟨_, h⟩
    · exact ⟨_, h⟩
    · exact ⟨_, h⟩
    · obtain ⟨_, e, _⟩ := Scanned.map_eq_ok_iff.mp h
      obtain ⟨_, e'⟩ := stringRest_lenient e
      exact ⟨_, Scanned.map_of_eq_ok e' _⟩
    · exact ⟨_, number_lenient h⟩

theorem nextName_of_nameAt {name : List Char} (h : nameAt strict text = .ok (name, rest)) :
    nextName strict true text = .ok (.name name rest) := by
  have again : nameAt strict (skipSpace text) = nameAt strict text := by
    simp only [nameAt, skipSpace, List.dropWhile_idempotent]
  unfold nextName
  split
  case h_1 e =>
    rw [← again, e] at h
    cases h
  case h_2 c after e =>
    have : c ≠ '}' := by
      rintro rfl
      simp [nameAt, e] at h
    rw [← again, e] at h
    rw [if_neg this, if_pos rfl, h]
    rfl

theorem nameAt_lenient {name : List Char} (h : nameAt true text = .ok (name, rest)) :
    ∃ name', nameAt false text = .ok (name', rest) := by
  unfold nameAt at h ⊢
  split at h
  case h_1 => cases h
  case h_2 =>
    split_ifs at h ⊢
    exact stringRest_lenient h

end Lenient

namespace Decoder

variable {decoder : Decoder α} {a : α}

theorem eq_some_of_ofOption {value : Option α} {after : List Char}
    (h : ofOption value after = .ok (a, rest)) : value = some a ∧ after = rest := by
  cases value
  case none => cases h
  case some =>
    cases h
    exact ⟨rfl, rfl⟩

-- Does the decoder read nothing but what can be passed over, and to the same end?
def Covered (decoder : Decoder α) : Prop :=
  ∀ text a rest, decoder.read text = .ok (a, rest) → skip text = .ok rest

def Shallow (decoder : Decoder α) : Prop :=
  ∀ text a rest, decoder.read text = .ok (a, rest) → ∀ room,
    ∃ value, Json.value false room text = .ok (value, rest)

theorem Shallow.covered (h : Shallow decoder) : Covered decoder := by
  intro text a rest read
  have ⟨value, e⟩ := h text a rest read text.length
  rw [skip, e]

theorem shallow_of_readScalar {pick : Json → Option α}
    (hd : ∀ text, decoder.read text = readScalar pick text) : Shallow decoder := by
  intro text a rest h room
  rw [hd, readScalar] at h
  have inside (inside : Option (List Char → Scanned Json)) :
      ∃ value, valueWith false inside text = .ok (value, rest) := by
    rw [valueWith]
    cases e : skipSpace text with
    | nil => simp [e] at h
    | cons c after =>
      simp only [e] at h
      split at h
      case isTrue => cases h
      case isFalse plain =>
        obtain ⟨_, rest', e', h⟩ := Scanned.eq_ok_of_andThen h
        obtain ⟨value', e''⟩ := scalar_lenient e'
        obtain ⟨_, er⟩ := eq_some_of_ofOption h
        subst er
        obtain ⟨bracket, brace⟩ := not_or.mp plain
        simp only [bracket, brace, if_false]
        exact ⟨value', e''⟩
  cases room
  case zero => exact inside _
  case succ => exact inside _

theorem shallow_nat : Shallow nat :=
  shallow_of_readScalar fun _ => rfl

theorem shallow_unit (a : α) : Shallow (unit a) :=
  shallow_of_readScalar fun _ => rfl

-- The object of an alternative is passed over with its only member.
theorem members_of_readVariant {variants : List (Variant α)} (room : Nat)
    (hv : ∀ variant ∈ variants, Shallow variant.content)
    (h : readVariant variants text = .ok (a, rest)) :
    ∃ values, members false (Json.value false room) true text = .ok (values, rest) := by
  have ⟨name, afterName, named, h⟩ := Scanned.eq_ok_of_andThen h
  split at h
  case h_1 => cases h
  case h_2 variant found =>
    obtain ⟨afterColon, colon, h⟩ := Scanned.exists_of_bind_eq_ok h
    have ⟨a', afterValue, read, h⟩ := Scanned.eq_ok_of_andThen h
    have ⟨close, _⟩ := Scanned.of_map_eq_ok h
    have ⟨name', named'⟩ := nameAt_lenient named
    have ⟨value, passed⟩ := hv variant (List.mem_of_find?_eq_some found) _ _ _ read room
    have shorter : afterValue.length < text.length := by
      have := length_nameAt named
      have := length_closing colon
      have := length_value passed
      omega
    have ends : nextName false false afterValue = .ok (.close ('}' :: rest)) :=
      nextName_eq_close_iff.mpr ⟨rest, closing_eq_ok_iff.mp close, rfl⟩
    refine ⟨[(name', value)], ?_⟩
    rw [members, nextName_of_nameAt named']
    simp only [colon, passed, if_pos shorter]
    rw [members, ends]
    rfl

theorem covered_oneOf {variants : List (Variant α)}
    (hv : ∀ variant ∈ variants, Shallow variant.content) : Covered (oneOf variants) := by
  intro text a rest h
  have room : text.length = text.length - 1 + 1 := by
    cases text
    case nil => cases h
    case cons => rfl
  have passes : ∃ value, valueWith false (some (Json.value false (text.length - 1))) text =
      .ok (value, rest) := by
    rw [valueWith]
    simp only [oneOf] at h
    cases space : skipSpace text with
    | nil => simp [space] at h
    | cons c after =>
      simp only [space] at h
      split_ifs at h with quote brace
      · subst quote
        obtain ⟨string, rest', e, h⟩ := Scanned.eq_ok_of_andThen h
        obtain ⟨string', e'⟩ := stringRest_lenient e
        obtain ⟨_, er⟩ := eq_some_of_ofOption h
        subst er
        exact ⟨.str string', by simp [Json.scalar, Scanned.map_of_eq_ok e']⟩
      · subst brace
        obtain ⟨values, e⟩ := members_of_readVariant (text.length - 1) hv h
        exact ⟨.obj values, by simp [Scanned.map_of_eq_ok e]⟩
  obtain ⟨value, e⟩ := passes
  rw [skip, room, Json.value, e]

end Decoder

end BoolSearch.Json
