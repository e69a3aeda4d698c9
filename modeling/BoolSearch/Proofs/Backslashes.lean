import BoolSearch.Proofs.Offsets
import BoolSearch.Query.Lookahead
import Mathlib.Algebra.Group.Nat.Even
import Mathlib.Data.List.DropRight
import Mathlib.Order.Bounds.Basic

namespace BoolSearch

-- A backslash takes along the character behind it, and this may be another backslash, so that those
-- in a row cancel each other in pairs.
def backslashes (text : List Char) : Nat :=
  (text.rtakeWhile (· == '\\')).length

def quotedEnd? (text : List Char) (place : Nat) : Option Nat :=
  (quoted? (text.drop place)).map fun (value, _) => place + value.length

structure ClosesAt (text : List Char) (opening : Char) (place position : Nat) : Prop where
  behind : place < position
  closing : ∃ c ∈ text[position]?, closes opening c
  free : Even (backslashes (text.extract (place + 1) position))

def Unclosed (text : List Char) (place : Nat) : Prop :=
  (∀ c ∈ text[place]?, isQuote c = false) ∨
    ∀ opening ∈ text[place]?, ∀ position, ¬ClosesAt text opening place position

-- The search for the end of a value has come to `position` without an end. It has to know whether
-- the character there is taken along.
structure Searching (text : List Char) (opening : Char) (place position : Nat) (escaped : Bool) :
    Prop where
  behind : place < position
  escaped_iff : escaped ↔ ¬Even (backslashes (text.extract (place + 1) position))
  unclosed : ∀ p < position, ¬ClosesAt text opening place p

variable {text ahead : List Char} {opening c : Char} {place position last : Nat} {escaped : Bool}

theorem backslashes_concat (text : List Char) (c : Char) :
    backslashes (text ++ [c]) = if c = '\\' then backslashes text + 1 else 0 := by
  by_cases h : c = '\\'
  case pos => simp [backslashes, h]
  case neg => simp [backslashes, h]

theorem getElem?_of_drop (h : text.drop position = c :: ahead) : text[position]? = some c := by
  rw [← List.head?_drop, h]
  rfl

theorem drop_succ_of_drop (h : text.drop position = c :: ahead) :
    text.drop (position + 1) = ahead := by
  rw [← List.tail_drop, h]
  rfl

theorem extract_succ (h : text.drop position = c :: ahead) :
    text.extract position (position + 1) = [c] := by
  rw [List.extract_eq_take_drop, h, Nat.add_sub_cancel_left]
  rfl

theorem ClosesAt.lt_length (h : ClosesAt text opening place position) : position < text.length := by
  obtain ⟨c, hc, _⟩ := h.closing
  exact (List.getElem?_eq_some_iff.mp hc).1

theorem searching_start (text : List Char) (opening : Char) (place : Nat) :
    Searching text opening place (place + 1) false where
  behind := Nat.lt_succ_self place
  escaped_iff := by simp [List.extract_eq_take_drop, backslashes]
  unclosed p hp h := absurd h.behind (Nat.not_lt.mpr (Nat.le_of_lt_succ hp))

namespace Searching

theorem closesAt_iff (h : Searching text opening place position escaped)
    (hc : text.drop position = c :: ahead) :
    ClosesAt text opening place position ↔ !escaped && closes opening c := by
  have flag := h.escaped_iff
  have char := getElem?_of_drop hc
  constructor
  case mp =>
    rintro ⟨_, ⟨d, hd, closing⟩, free⟩
    cases char.symm.trans hd
    cases escaped
    case false => simpa using closing
    case true  => exact absurd free (flag.mp rfl)
  case mpr =>
    intro closing
    rw [Bool.and_eq_true, Bool.not_eq_true'] at closing
    exact ⟨h.behind, ⟨c, char, closing.2⟩, by simpa [closing.1] using flag⟩

-- A step of the search: a backslash takes the next character along unless it is itself taken along.
theorem step (h : Searching text opening place position escaped)
    (hc : text.drop position = c :: ahead) (hn : ¬ClosesAt text opening place position) :
    Searching text opening place (position + 1) (!escaped && c == '\\') where
  behind := Nat.lt_succ_of_lt h.behind
  escaped_iff := by
    have flag := h.escaped_iff
    have front : text.extract (place + 1) (position + 1) =
        text.extract (place + 1) position ++ [c] := by
      rw [← extract_append_extract h.behind (Nat.le_succ position), extract_succ hc]
    rw [front, backslashes_concat]
    by_cases hb : c = '\\'
    case pos => cases escaped <;> simp_all [Nat.even_add_one]
    case neg => simp [hb]
  unclosed p hp := by
    cases Nat.lt_succ_iff_lt_or_eq.mp hp
    case inl lt => exact h.unclosed p lt
    case inr e  => exact e ▸ hn

-- By induction on the text ahead: the search finds the first end there is, if there is one.
theorem closing?_cases (h : Searching text opening place position escaped) :
    (∃ last, IsLeast {p | ClosesAt text opening place p} last ∧
      closing? opening escaped (text.drop position) =
        some (text.extract position (last + 1), text.drop (last + 1))) ∨
    (∀ p, ¬ClosesAt text opening place p) ∧
      closing? opening escaped (text.drop position) = none := by
  generalize hd : text.drop position = ahead
  induction ahead generalizing position escaped
  case nil =>
    refine .inr ⟨fun p hp => ?_, rfl⟩
    have beyond : text.length ≤ position := List.drop_eq_nil_iff.mp hd
    exact h.unclosed p (Nat.lt_of_lt_of_le hp.lt_length beyond) hp
  case cons c ahead hi =>
    have hs := drop_succ_of_drop hd
    rw [closing?]
    by_cases hp : ClosesAt text opening place position
    case pos =>
      refine .inl ⟨position, ⟨hp, fun p hp => ?_⟩, ?_⟩
      · exact Nat.le_of_not_lt fun lt => h.unclosed p lt hp
      · rw [if_pos ((h.closesAt_iff hd).mp hp), extract_succ hd, hs]
    case neg =>
      rw [if_neg (mt (h.closesAt_iff hd).mpr hp)]
      obtain ⟨last, least, e⟩ | ⟨none, e⟩ := hi (h.step hd hp) hs
      case inl =>
        have le : position ≤ last := Nat.le_of_not_lt fun lt => h.unclosed last lt least.1
        refine .inl ⟨last, least, ?_⟩
        rw [e, ← extract_append_extract (Nat.le_succ position) (Nat.succ_le_succ le),
          extract_succ hd]
        rfl
      case inr => exact .inr ⟨none, by rw [e]; rfl⟩

end Searching

theorem quoted?_drop_cases (text : List Char) (place : Nat) :
    (∃ opening ∈ text[place]?, isQuote opening ∧
      ∃ last, IsLeast {p | ClosesAt text opening place p} last ∧
        quoted? (text.drop place) = some (text.extract place (last + 1), text.drop (last + 1))) ∨
    Unclosed text place ∧ quoted? (text.drop place) = none := by
  cases hd : text.drop place
  case nil =>
    have beyond : text.length ≤ place := List.drop_eq_nil_iff.mp hd
    exact .inr ⟨.inl (by simp [List.getElem?_eq_none beyond]), rfl⟩
  case cons c ahead =>
    have char := getElem?_of_drop hd
    have only : ∀ d ∈ text[place]?, d = c := fun d hd => by
      cases char.symm.trans hd
      rfl
    rw [quoted?]
    cases hq : isQuote c
    case false => exact .inr ⟨.inl fun d hd => only d hd ▸ hq, rfl⟩
    case true =>
      rw [if_pos rfl, ← drop_succ_of_drop hd]
      obtain ⟨last, least, e⟩ | ⟨none, e⟩ := (searching_start text c place).closing?_cases
      case inl =>
        refine .inl ⟨c, char, hq, last, least, ?_⟩
        have le : place + 1 ≤ last + 1 := Nat.le_succ_of_le least.1.behind
        rw [e, ← extract_append_extract (Nat.le_succ place) le, extract_succ hd]
        rfl
      case inr => exact .inr ⟨.inr fun d hd => only d hd ▸ none, by rw [e]; rfl⟩

theorem add_length_extract (h : ClosesAt text opening place last) :
    place + (text.extract place (last + 1)).length = last + 1 := by
  have := h.behind
  have := h.lt_length
  rw [List.extract_eq_take_drop, List.length_take, List.length_drop]
  omega

theorem Unclosed.not_closesAt (h : Unclosed text place) (ho : opening ∈ text[place]?)
    (hq : isQuote opening) : ¬ClosesAt text opening place position := by
  cases h
  case inl unquoted => exact absurd hq (ne_true_of_eq_false (unquoted opening ho))
  case inr endless  => exact endless opening ho position

-- A quoted value ends at the first character that closes it with an even number of backslashes in
-- front. Where there is none, or no quote in the first place, there is no value.
theorem quoted_up_to_free_quote (text : List Char) (place : Nat) :
    (∀ stop, quotedEnd? text place = some stop ↔ ∃ opening ∈ text[place]?, isQuote opening ∧
      ∃ last, IsLeast {p | ClosesAt text opening place p} last ∧ last + 1 = stop) ∧
    (quotedEnd? text place = none ↔ Unclosed text place) ∧
    quoted? (text.drop place) =
      (quotedEnd? text place).map fun stop => (text.extract place stop, text.drop stop) := by
  obtain ⟨opening, ho, hq, last, least, e⟩ | ⟨unclosed, e⟩ := quoted?_drop_cases text place
  case inl =>
    have found : quotedEnd? text place = some (last + 1) := by
      rw [quotedEnd?, e]
      exact congrArg some (add_length_extract least.1)
    refine ⟨fun stop => ⟨?_, ?_⟩, iff_of_false (by simp [found]) ?_, by rw [e, found]; rfl⟩
    · intro h
      exact ⟨opening, ho, hq, last, least, Option.some.inj (found.symm.trans h)⟩
    · rintro ⟨other, ho', _, last', least', rfl⟩
      cases ho.symm.trans ho'
      rw [found, least.unique least']
    · exact fun unclosed => unclosed.not_closesAt ho hq least.1
  case inr =>
    have absent : quotedEnd? text place = none := by
      rw [quotedEnd?, e]
      rfl
    refine ⟨fun stop => iff_of_false (by simp [absent]) ?_, iff_of_true absent unclosed, ?_⟩
    · rintro ⟨opening, ho, hq, last, least, _⟩
      exact unclosed.not_closesAt ho hq least.1
    · rw [e, absent]
      rfl

-- A backslash takes the first curly quote along, a straight quote does not close the value, and the
-- two backslashes in front of the second curly quote cancel each other.
example : quotedEnd? "a=“b\\”\\\\\" c\\\\“”".toList 2 = some 14 := by decide

end BoolSearch
