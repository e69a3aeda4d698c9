import Mathlib
import BoolSearch.Proofs.Scans

namespace BoolSearch

open Grammar

def isMark (c : Char) : Bool :=
  isQuote c || bareStops.contains c

def isOrdinary (c : Char) : Bool :=
  !isBlank c && !isLetter c && !isMark c

-- The case of a letter does not matter, nor which blank or which ordinary character it is.
inductive SameClass (c d : Char) : Prop
  | folded (h : c.toLower = d.toLower)
  | blank (hc : isBlank c) (hd : isBlank d)
  | ordinary (hc : isOrdinary c) (hd : isOrdinary d)

instance decidableSameClass (c d : Char) : Decidable (SameClass c d) :=
  decidable_of_iff (c.toLower = d.toLower ∨ (isBlank c ∧ isBlank d) ∨ isOrdinary c ∧ isOrdinary d)
    ⟨fun h => h.elim .folded fun h => h.elim (fun h => .blank h.1 h.2) fun h => .ordinary h.1 h.2,
      fun h => by cases h <;> simp_all⟩

-- The character that stands for all of its class.
def typical (c : Char) : Char :=
  if isLetter c then c.toLower
  else if isBlank c then ' '
  else if isMark c then c
  else '.'

section Characters

variable {c d : Char}

theorem isLetter_eq_isAlpha (c : Char) : isLetter c = c.isAlpha := by
  rw [Bool.eq_iff_iff, isLetter_iff]
  simp only [Char.isAlpha, Char.isUpper, Char.isLower, Bool.or_eq_true, Bool.and_eq_true,
    decide_eq_true_eq, ge_iff_le, UInt32.le_iff_toNat_le]
  rfl

theorem isLetter_toLower (c : Char) : isLetter c.toLower = isLetter c := by
  rw [isLetter_eq_isAlpha, Char.isAlpha_toLower_eq_isAlpha, isLetter_eq_isAlpha]

theorem toLower_of_not_isLetter (h : isLetter c = false) : c.toLower = c := by
  apply Char.toLower_eq_of_not_isUpper
  rw [isLetter_eq_isAlpha, Char.isAlpha, Bool.or_eq_false_iff] at h
  exact ne_true_of_eq_false h.1

theorem isMark_iff : isMark c ↔ c ∈ ['"', '\x27', '“', '”', ')', '=', '(', '\\'] := by
  simp [isMark, isQuote_iff, bareStops, or_assoc]

theorem isLetter_of_isMark (h : isMark c) : isLetter c = false := by
  have hm := isMark_iff.mp h
  fin_cases hm <;> decide

theorem isBlank_of_isMark (h : isMark c) : isBlank c = false := by
  have hm := isMark_iff.mp h
  fin_cases hm <;> decide

theorem typical_of_isMark (h : isMark c) : typical c = c := by
  simp [typical, isLetter_of_isMark h, isBlank_of_isMark h, h]

theorem typical_cases (c : Char) :
    (isLetter c ∧ typical c = c.toLower) ∨ (isBlank c ∧ typical c = ' ') ∨
      (isMark c ∧ typical c = c) ∨ (isOrdinary c ∧ typical c = '.') := by
  cases hl : isLetter c
  case true => exact .inl ⟨rfl, by simp [typical, hl]⟩
  case false =>
    cases hb : isBlank c
    case true => exact .inr (.inl ⟨rfl, by simp [typical, hl, hb]⟩)
    case false =>
      cases hm : isMark c
      case true  => exact .inr (.inr (.inl ⟨rfl, typical_of_isMark hm⟩))
      case false => exact .inr (.inr (.inr (by simp [typical, isOrdinary, hl, hb, hm])))

theorem typical_eq_of_sameClass (h : SameClass c d) : typical c = typical d := by
  cases h
  case folded h =>
    have letters : isLetter c = isLetter d := by rw [← isLetter_toLower, h, isLetter_toLower]
    cases hd : isLetter d
    case true  => simp [typical, letters, hd, h]
    case false =>
      rw [toLower_of_not_isLetter (letters.trans hd), toLower_of_not_isLetter hd] at h
      rw [h]
  case blank hc hd => simp [typical, hc, hd, isLetter_of_isBlank]
  case ordinary hc hd =>
    simp only [isOrdinary, Bool.and_eq_true, Bool.not_eq_true'] at hc hd
    simp [typical, hc, hd]

@[simp] theorem isLetter_typical (c : Char) : isLetter (typical c) = isLetter c := by
  obtain ⟨_, e⟩ | ⟨h, e⟩ | ⟨_, e⟩ | ⟨h, e⟩ := typical_cases c
  · rw [e, isLetter_toLower]
  · rw [e, isLetter_of_isBlank h]
    rfl
  · rw [e]
  · simp only [isOrdinary, Bool.and_eq_true, Bool.not_eq_true'] at h
    rw [e, h.1.2]
    rfl

@[simp] theorem isBlank_typical (c : Char) : isBlank (typical c) = isBlank c := by
  obtain ⟨h, e⟩ | ⟨h, e⟩ | ⟨_, e⟩ | ⟨h, e⟩ := typical_cases c
  · rw [e, isBlank_of_isLetter h, isBlank_of_isLetter ((isLetter_toLower c).trans h)]
  · rw [e, h]
    decide
  · rw [e]
  · simp only [isOrdinary, Bool.and_eq_true, Bool.not_eq_true'] at h
    rw [e, h.1.1]
    decide

@[simp] theorem isMark_typical (c : Char) : isMark (typical c) = isMark c := by
  obtain ⟨h, e⟩ | ⟨h, e⟩ | ⟨_, e⟩ | ⟨h, e⟩ := typical_cases c
  · have unmarked {d : Char} (hd : isLetter d) : isMark d = false :=
      eq_false_of_ne_true fun hm => absurd hd (ne_true_of_eq_false (isLetter_of_isMark hm))
    rw [e, unmarked h, unmarked ((isLetter_toLower c).trans h)]
  · have unmarked : isMark c = false :=
      eq_false_of_ne_true fun hm => absurd h (ne_true_of_eq_false (isBlank_of_isMark hm))
    rw [e, unmarked]
    decide
  · rw [e]
  · simp only [isOrdinary, Bool.and_eq_true, Bool.not_eq_true'] at h
    rw [e, h.2]
    decide

theorem typical_eq_iff (h : isMark d) : typical c = d ↔ c = d := by
  constructor
  case mp =>
    rintro rfl
    rw [isMark_typical] at h
    exact (typical_of_isMark h).symm
  case mpr =>
    rintro rfl
    exact typical_of_isMark h

@[simp] theorem isQuote_typical (c : Char) : isQuote (typical c) = isQuote c := by
  rw [Bool.eq_iff_iff, isQuote_iff, isQuote_iff]
  simp only [typical_eq_iff (show isMark '"' by decide),
    typical_eq_iff (show isMark '\x27' by decide), typical_eq_iff (show isMark '“' by decide),
    typical_eq_iff (show isMark '”' by decide)]

@[simp] theorem isParen_typical (c : Char) : isParen (typical c) = isParen c := by
  rw [Bool.eq_iff_iff]
  simp [isParen, typical_eq_iff (show isMark '(' by decide),
    typical_eq_iff (show isMark ')' by decide)]

@[simp] theorem isBare_typical (c : Char) : isBare (typical c) = isBare c := by
  have stops : bareStops.contains (typical c) = bareStops.contains c := by
    rw [Bool.eq_iff_iff]
    simp [bareStops, typical_eq_iff (show isMark ')' by decide),
      typical_eq_iff (show isMark '=' by decide), typical_eq_iff (show isMark '(' by decide),
      typical_eq_iff (show isMark '\\' by decide)]
  rw [isBare, isBare, isBlank_typical, stops]

@[simp] theorem endsWord_typical (c : Char) : endsWord (typical c) = endsWord c := by
  rw [endsWord, endsWord, isBlank_typical, isParen_typical]

@[simp] theorem isOperandStart_typical (c : Char) :
    isOperandStart (typical c) = isOperandStart c := by
  rw [isOperandStart, isOperandStart, isLetter_typical, isQuote_typical]

theorem isQuote_opening_of_closes (h : closes c d) : isQuote c :=
  List.any_eq_true.mpr ⟨(c, d), by simpa [closes] using h, by simp⟩

-- Only quotes close each other, and each of them stands for itself.
@[simp] theorem closes_typical (c d : Char) : closes (typical c) (typical d) = closes c d := by
  have same {c : Char} (h : isQuote c) : typical c = c :=
    typical_of_isMark (by rw [isMark, h, Bool.true_or])
  rw [Bool.eq_iff_iff]
  constructor
  case mp =>
    intro h
    have hc : isQuote c := by rw [← isQuote_typical, isQuote_opening_of_closes h]
    have hd : isQuote d := by rw [← isQuote_typical, isQuote_of_closes h]
    rwa [same hc, same hd] at h
  case mpr =>
    intro h
    rwa [same (isQuote_opening_of_closes h), same (isQuote_of_closes h)]

theorem toLower_typical_eq_iff (hd : isLetter d) :
    d.toLower = (typical c).toLower ↔ d.toLower = c.toLower := by
  have letter {c : Char} (h : d.toLower = c.toLower) : isLetter c := by
    rw [← isLetter_toLower, ← h, isLetter_toLower, hd]
  have same (hc : isLetter c) : (typical c).toLower = c.toLower := by simp [typical, hc]
  constructor
  case mp =>
    intro h
    rwa [same (isLetter_typical c ▸ letter h)] at h
  case mpr =>
    intro h
    rwa [same (letter h)]

end Characters

section Lookahead

variable {text : List Char}

theorem takeWhile_typical {p : Char → Bool} (h : ∀ c, p (typical c) = p c) (text : List Char) :
    (text.map typical).takeWhile p = (text.takeWhile p).map typical := by
  have e : p ∘ typical = p := funext h
  rw [List.takeWhile_map, e]

theorem dropWhile_typical {p : Char → Bool} (h : ∀ c, p (typical c) = p c) (text : List Char) :
    (text.map typical).dropWhile p = (text.dropWhile p).map typical := by
  have e : p ∘ typical = p := funext h
  rw [List.dropWhile_map, e]

theorem skipBlanks_typical (text : List Char) :
    skipBlanks (text.map typical) = (skipBlanks text).map typical :=
  dropWhile_typical isBlank_typical text

theorem startsWith_typical {word : List Char} (h : ∀ c ∈ word, isLetter c) :
    startsWith word (text.map typical) = startsWith word text := by
  fun_induction startsWith word text
  case case1 => rw [startsWith]
  case case2 => rfl
  case case3 w word c text hi =>
    have hw : isLetter w := h w (by simp)
    have same : (w.toLower == (typical c).toLower) = (w.toLower == c.toLower) := by
      rw [Bool.eq_iff_iff, beq_iff_eq, beq_iff_eq, toLower_typical_eq_iff hw]
    rw [List.map_cons, startsWith, same, hi fun d hd => h d (List.mem_cons_of_mem w hd)]

theorem keyword?_typical (text : List Char) : keyword? (text.map typical) = keyword? text := by
  have same : (fun connective : Connective => startsWith connective.spelling (text.map typical)) =
      fun connective => startsWith connective.spelling text := by
    funext connective
    have spells : Spells connective connective.spelling := rfl
    exact startsWith_typical (isLetter_of_spells spells)
  rw [keyword?, same, keyword?]

theorem joining?_typical (text : List Char) : joining? (text.map typical) = joining? text := by
  rw [joining?, joining?, keyword?_typical]

theorem standalone?_typical (text : List Char) :
    standalone? (text.map typical) = standalone? text := by
  rw [standalone?, standalone?, joining?_typical]
  congr 1
  funext connective
  rw [← List.map_drop, List.head?_map]
  cases (text.drop connective.width).head? <;> simp

def KeyHead.typical (head : KeyHead) : KeyHead where
  name := head.name.map BoolSearch.typical
  blanks := head.blanks.map BoolSearch.typical
  rest := head.rest.map BoolSearch.typical

theorem key?_typical (text : List Char) :
    key? (text.map typical) = (key? text).map KeyHead.typical := by
  simp only [key?, takeWhile_typical isLetter_typical, dropWhile_typical isLetter_typical,
    skipBlanks_typical, takeWhile_typical isBlank_typical, List.length_map]
  split
  case isTrue => rfl
  case isFalse =>
    cases hs : skipBlanks (text.dropWhile isLetter)
    case nil => rfl
    case cons c rest =>
      by_cases hc : c = '='
      case pos =>
        subst hc
        rfl
      case neg =>
        have hc' : typical c ≠ '=' := (typical_eq_iff (by decide)).not.mpr hc
        simp [hc, hc']

def splitTypical : List Char × List Char → List Char × List Char :=
  Prod.map (List.map typical) (List.map typical)

theorem closing?_typical (opening : Char) (escaped : Bool) (text : List Char) :
    closing? (typical opening) escaped (text.map typical) =
      (closing? opening escaped text).map splitTypical := by
  induction text generalizing escaped
  case nil => rfl
  case cons c text hi =>
    have backslash : (typical c == '\\') = (c == '\\') := by
      rw [Bool.eq_iff_iff, beq_iff_eq, beq_iff_eq, typical_eq_iff (by decide)]
    rw [List.map_cons, closing?, closing?, closes_typical, backslash, hi]
    split
    case isTrue  => rfl
    case isFalse => cases closing? opening (!escaped && c == '\\') text <;> rfl

theorem quoted?_typical (text : List Char) :
    quoted? (text.map typical) = (quoted? text).map splitTypical := by
  cases text
  case nil => rfl
  case cons c text =>
    rw [List.map_cons, quoted?, quoted?, isQuote_typical, closing?_typical]
    split
    case isTrue  => cases closing? c false text <;> rfl
    case isFalse => rfl

theorem firstWord_typical (text : List Char) :
    firstWord (text.map typical) = (firstWord text).map typical := by
  cases text
  case nil => rfl
  case cons c text =>
    rw [List.map_cons, firstWord, firstWord, isParen_typical]
    split
    case isTrue  => rfl
    case isFalse => exact takeWhile_typical (fun c => by rw [endsWord_typical]) (c :: text)

theorem spells_typical_iff {connective : Connective} {word : List Char} :
    Spells connective (word.map typical) ↔ Spells connective word := by
  have same (h : ∀ c ∈ word, isLetter c) :
      (word.map typical).map Char.toLower = word.map Char.toLower := by
    rw [List.map_map]
    exact List.map_congr_left fun c hc => by simp [typical, h c hc]
  constructor
  case mp =>
    intro h
    have letters : ∀ c ∈ word, isLetter c := by
      intro c hc
      rw [← isLetter_typical]
      exact isLetter_of_spells h _ (List.mem_map_of_mem hc)
    exact (same letters).symm.trans h
  case mpr =>
    intro h
    exact (same (isLetter_of_spells h)).trans h

theorem nextJoins_typical (text : List Char) : nextJoins (text.map typical) = nextJoins text := by
  rw [Bool.eq_iff_iff]
  simp only [nextJoins, firstWord_typical, Bool.or_eq_true, beq_iff_eq, ← spells_joining_iff,
    spells_typical_iff]

end Lookahead

def Lexeme.typical (lexeme : Lexeme) : Lexeme :=
  ⟨lexeme.kind, lexeme.text.map BoolSearch.typical⟩

namespace Scan

variable {text : List Char}

def typical (scan : Scan) : Scan where
  head := scan.head.typical
  more := scan.more.map Lexeme.typical
  rest := scan.rest.map BoolSearch.typical

@[simp] theorem typical_one (kind : TokenKind) (text rest : List Char) :
    (one kind text rest).typical =
      one kind (text.map BoolSearch.typical) (rest.map BoolSearch.typical) := rfl

theorem lastKind_typical (scan : Scan) : scan.typical.lastKind = scan.lastKind := by
  simp only [lastKind, typical, List.getLast?_map]
  cases scan.more.getLast? <;> rfl

theorem lexemes_typical (scan : Scan) : scan.typical.lexemes = scan.lexemes.map Lexeme.typical :=
  rfl

theorem blanks_typical (text : List Char) :
    blanks (text.map BoolSearch.typical) = (blanks text).map Lexeme.typical := by
  simp [blanks, Lexeme.typical]

theorem atQuote_typical (c : Char) (text : List Char) :
    atQuote (BoolSearch.typical c) (text.map BoolSearch.typical) = (atQuote c text).typical := by
  rw [atQuote, atQuote, ← List.map_cons, quoted?_typical]
  cases quoted? (c :: text) <;> rfl

theorem keyValue_typical (text : List Char) : keyValue (text.map BoolSearch.typical) =
    ((keyValue text).1.map Lexeme.typical, (keyValue text).2.map BoolSearch.typical) := by
  cases text
  case nil => rfl
  case cons c text =>
    have run := takeWhile_typical isBare_typical (c :: text)
    have after := dropWhile_typical isBare_typical (c :: text)
    rw [List.map_cons] at run after ⊢
    simp only [keyValue, isQuote_typical, atQuote_typical, run, after]
    split
    case isTrue => rfl
    case isFalse => cases (c :: text).takeWhile isBare <;> rfl

theorem atKey_typical (head : KeyHead) : atKey head.typical = (atKey head).typical := by
  simp only [atKey, KeyHead.typical, skipBlanks_typical, keyValue_typical, blanks_typical,
    takeWhile_typical isBlank_typical, typical, Lexeme.typical]
  simp [Lexeme.typical, show BoolSearch.typical '=' = '=' by decide]

theorem next_typical (previous : Option TokenKind) (c : Char) (text : List Char) :
    next previous (BoolSearch.typical c) (text.map BoolSearch.typical) =
      (next previous c text).typical := by
  have opening : BoolSearch.typical c = '(' ↔ c = '(' := typical_eq_iff (by decide)
  have closing : BoolSearch.typical c = ')' ↔ c = ')' := typical_eq_iff (by decide)
  have all : BoolSearch.typical c :: text.map BoolSearch.typical =
      (c :: text).map BoolSearch.typical := rfl
  simp only [next, all, isBlank_typical, isQuote_typical, keyword?_typical, key?_typical,
    atQuote_typical, opening, closing]
  cases isBlank c
  case true => rfl
  case false =>
    cases keyword? (c :: text)
    case some connective => simp [List.map_take, List.map_drop]
    case none =>
      by_cases ho : c = '('
      case pos => simp [ho]
      case neg =>
        by_cases hc : c = ')'
        case pos => simp [hc]
        case neg =>
          cases key? (c :: text)
          case some head => simp [ho, hc, atKey_typical]
          case none =>
            simp only [ho, hc, Option.map_none, Bool.false_eq_true, if_false]
            cases isQuote c && quoteStartsOperand previous <;> rfl

end Scan

-- By induction on the scans.
theorem lexemes_typical (previous : Option TokenKind) (text : List Char) :
    lexemes previous (text.map typical) = (lexemes previous text).map Lexeme.typical := by
  fun_induction lexemes previous text
  case case1 => simp
  case case2 previous c text scan hi =>
    rw [List.map_cons, lexemes, Scan.next_typical, Scan.lexemes_typical, Scan.lastKind_typical,
      List.map_append, ← hi]
    rfl

end BoolSearch
