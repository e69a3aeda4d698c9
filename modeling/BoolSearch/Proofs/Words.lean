import BoolSearch.Proofs.Offsets
import BoolSearch.Proofs.Walk

namespace BoolSearch

open Grammar

def wordEnd (text : List Char) (place : Nat) : Nat :=
  place + (firstWord (text.drop place)).length

def WordJoins (text : List Char) (place : Nat) (connective : Connective) : Prop :=
  connective ≠ .not ∧ ∃ word,
    sliceChars? text place (wordEnd text place) = some word ∧ Spells connective word

section Lookaheads

variable {text rest word : List Char} {place : Nat} {connective : Connective}

theorem sliceChars?_wordEnd (text : List Char) (place : Nat) :
    sliceChars? text place (wordEnd text place) = some (firstWord (text.drop place)) := by
  have ⟨rest, e⟩ := exists_firstWord_append (text.drop place)
  have le : place ≤ wordEnd text place := Nat.le_add_right _ _
  have cut : text.extract place (wordEnd text place) = firstWord (text.drop place) := by
    rw [List.extract_eq_take_drop, wordEnd, Nat.add_sub_cancel_left]
    exact (List.prefix_iff_eq_take.mp ⟨rest, e⟩).symm
  rw [sliceChars?_of_le le, cut]

theorem wordJoins_iff : WordJoins text place connective ↔
    connective ≠ .not ∧ Spells connective (firstWord (text.drop place)) := by
  simp [WordJoins, sliceChars?_wordEnd]

theorem nextJoins_iff_wordJoins :
    nextJoins (text.drop place) ↔ ∃ connective, WordJoins text place connective := by
  simp only [nextJoins_iff_spells, wordJoins_iff]

theorem getElem?_add_width (hs : Spells connective word) (e : word ++ rest = text.drop place) :
    text[place + connective.width]? = rest.head? := by
  rw [← List.getElem?_drop, ← e, ← length_of_spells hs,
    List.getElem?_append_right (Nat.le_refl _), Nat.sub_self, List.head?_eq_getElem?]

-- A blank, a parenthesis and the end of the text end a word and what stands alone. A quote
-- ends only what stands alone.
theorem wordJoins_iff_standalone? : WordJoins text place connective ↔
    standalone? (text.drop place) = some connective ∧
      ∀ c ∈ text[place + connective.width]?, isQuote c = false := by
  rw [wordJoins_iff, spells_firstWord_iff, standalone?_eq_some_iff]
  constructor
  case mp =>
    rintro ⟨joins, word, rest, hs, e, stop⟩
    refine ⟨⟨joins, word, rest, hs, e, fun c hc => .inl (stop c hc)⟩, fun c hc => ?_⟩
    rw [getElem?_add_width hs e] at hc
    exact isQuote_of_not_isBare (isBare_of_endsWord (stop c hc))
  case mpr =>
    rintro ⟨⟨joins, word, rest, hs, e, stop⟩, unquoted⟩
    refine ⟨joins, word, rest, hs, e, fun c hc => (stop c hc).resolve_right ?_⟩
    rw [← getElem?_add_width hs e] at hc
    simp [unquoted c hc]

theorem WordJoins.begins (h : WordJoins text place connective) :
    Begins connective (text.drop place) :=
  have ⟨rest, e⟩ := exists_firstWord_append (text.drop place)
  ⟨_, rest, e, (wordJoins_iff.mp h).2⟩

theorem WordJoins.joining?_eq (h : WordJoins text place connective) :
    joining? (text.drop place) = some connective :=
  joining?_eq_some_iff.mpr ⟨h.1, h.begins⟩

theorem WordJoins.wordEnd_eq (h : WordJoins text place connective) :
    wordEnd text place = place + connective.width := by
  rw [wordEnd, length_of_spells (wordJoins_iff.mp h).2]

end Lookaheads

namespace Reading

variable {r : Reading} {text : List Char} {place : Nat} {connective : Connective}
  {outcome : Except Rejection Next}

def arrived : Except Rejection Next → Reading
  | .ok next         => next.reading
  | .error rejection => rejection.reading

-- Has the connective been read at `r`? It is the next part, and at most blanks follow.
def Consumes (r : Reading) (connective : Connective) (outcome : Except Rejection Next) : Prop :=
  ∃ word gap, (arrived outcome).lexemes =
    r.lexemes ++ ⟨.connective connective, word⟩ :: Scan.blanks gap

-- How an expression goes on behind a block and its blanks, at this place of the text.
structure GoesOn (text : List Char) (place : Nat) (r : Reading) (outcome : Except Rejection Next) :
    Prop where
  consumes_iff : ∀ connective, Consumes r connective outcome ↔ WordJoins text place connective
  rest_eq : ∀ connective, WordJoins text place connective →
    (arrived outcome).rest = BoolSearch.skipBlanks (text.drop (wordEnd text place))
  missing_iff : outcome = r.reject .missingConnective ↔
    (∃ c ∈ text[place]?, isOperandStart c) ∧ ∀ connective, ¬WordJoins text place connective

theorem arrived_join (r : Reading) (connective : Connective) :
    arrived (r.join connective) = r.pushJoining connective := by
  rw [join]
  split <;> rfl

theorem join_ne_missing (r : Reading) (connective : Connective) :
    r.join connective ≠ r.reject .missingConnective := by
  rw [join]
  split <;> simp [reject]

theorem lexemes_pushJoining (r : Reading) (connective : Connective) :
    (r.pushJoining connective).lexemes = r.lexemes ++
      ⟨.connective connective, r.rest.take connective.width⟩ ::
        Scan.blanks ((r.rest.drop connective.width).takeWhile isBlank) := by
  simp [pushJoining, pushConnective, skipBlanks, push, pushBlanks, setLatest, lexemes, Scan.blanks]

theorem proceed_of_wordJoins (e : r.rest = text.drop place)
    (h : WordJoins text place connective) : r.proceed = r.join connective := by
  have ⟨c, hc, _⟩ := h.begins.isOperandStart
  rw [← e] at hc
  have ⟨tail, hr⟩ := List.head?_eq_some_iff.mp hc
  have next : nextJoins r.rest := by
    rw [e, nextJoins_iff_wordJoins]
    exact ⟨connective, h⟩
  have joins : joining? r.rest = some connective := by rw [e, h.joining?_eq]
  rw [proceed, hr]
  simp [← hr, next, joins]

-- Without a whole word, an operand may not start here, and otherwise nothing is read.
theorem proceed_of_not_wordJoins (hl : r.progress.latest = .block) (e : r.rest = text.drop place)
    (h : ∀ connective, ¬WordJoins text place connective) :
    ((∃ c ∈ text[place]?, isOperandStart c) ∧ r.proceed = r.reject .missingConnective) ∨
    ((∀ c ∈ text[place]?, isOperandStart c = false) ∧ ∃ next, r.proceed = .ok next ∧
      next.reading = r) := by
  have next : nextJoins r.rest = false := by
    rw [← Bool.not_eq_true, e, nextJoins_iff_wordJoins]
    exact fun ⟨connective, hw⟩ => h connective hw
  rw [← List.head?_drop, ← e, proceed]
  cases hr : r.rest
  case nil => exact .inr ⟨by simp, .done r, rfl, rfl⟩
  case cons c rest =>
    cases hc : isOperandStart c
    case true =>
      refine .inl ⟨⟨c, rfl, hc⟩, ?_⟩
      simp [← hr, hl, hc, next]
    case false =>
      have unjoined : joining? r.rest = none := joining?_of_apart (by simp [hr, hc])
      refine .inr ⟨by simp [hc],
        if c = ')' ∨ r.progress.depth = 0 then .done r else .more r, ?_, ?_⟩
      · simp [← hr, hc, unjoined]
      · split <;> rfl

theorem Consumes.unique (h : Consumes r connective outcome) {other : Connective}
    (h' : Consumes r other outcome) : connective = other := by
  obtain ⟨word, gap, e⟩ := h
  obtain ⟨word', gap', e'⟩ := h'
  have same := List.append_cancel_left (e.symm.trans e')
  simpa using congrArg (fun parts => parts.head?.map Lexeme.kind) same

theorem not_consumes_of_arrived (h : arrived outcome = r) : ¬Consumes r connective outcome := by
  rintro ⟨word, gap, e⟩
  simpa [h] using congrArg List.length e

theorem goesOn_proceed (hl : r.progress.latest = .block) (e : r.rest = text.drop place) :
    GoesOn text place r r.proceed := by
  by_cases h : ∃ connective, WordJoins text place connective
  case pos =>
    obtain ⟨connective, h⟩ := h
    have hp := proceed_of_wordJoins e h
    have consumed : Consumes r connective r.proceed := by
      rw [hp, Consumes, arrived_join, lexemes_pushJoining]
      exact ⟨_, _, rfl⟩
    exact {
      consumes_iff := fun other => ⟨fun ho => ho.unique consumed ▸ h, fun ho => by
        cases Option.some.inj (ho.joining?_eq.symm.trans h.joining?_eq)
        exact consumed⟩
      rest_eq := fun _ _ => by
        rw [hp, arrived_join, h.wordEnd_eq, ← List.drop_drop, ← e]
        rfl
      missing_iff := iff_of_false (hp ▸ join_ne_missing r connective) fun hn => hn.2 _ h }
  case neg =>
    rw [not_exists] at h
    obtain ⟨start, hp⟩ | ⟨apart, next, hp, hn⟩ := proceed_of_not_wordJoins hl e h
    case inl =>
      exact {
        consumes_iff := fun _ => iff_of_false (not_consumes_of_arrived (by rw [hp]; rfl)) (h _)
        rest_eq := fun _ hw => absurd hw (h _)
        missing_iff := iff_of_true hp ⟨start, h⟩ }
    case inr =>
      exact {
        consumes_iff := fun _ => iff_of_false (not_consumes_of_arrived (by rw [hp]; exact hn)) (h _)
        rest_eq := fun _ hw => absurd hw (h _)
        missing_iff := iff_of_false (by simp [hp, reject]) fun ⟨⟨c, hc, start⟩, _⟩ => by
          simp [apart c hc] at start }

end Reading

-- The lookaheads for a connective agree. So behind any of its blocks an expression reads an `AND`
-- or `OR` if and only if that is the whole next word, and refuses any other start of an operand.
theorem connective_lookaheads_agree (text : List Char) (place : Nat) :
    (∀ connective, WordJoins text place connective ↔
      standalone? (text.drop place) = some connective ∧
        ∀ c ∈ text[place + connective.width]?, isQuote c = false) ∧
    (∀ connective, WordJoins text place connective →
      joining? (text.drop place) = some connective ∧
        wordEnd text place = place + connective.width) ∧
    (nextJoins (text.drop place) ↔ ∃ connective, WordJoins text place connective) ∧
    ∀ room r s, Reading.block (Reading.insideOf room) r = .ok s →
      s.skipBlanks.rest = text.drop place →
      Reading.expression room r = Reading.continued (Reading.block (Reading.insideOf room)) s ∧
        Reading.GoesOn text place s.skipBlanks s.next := by
  refine ⟨fun _ => wordJoins_iff_standalone?, fun _ h => ⟨h.joining?_eq, h.wordEnd_eq⟩,
    nextJoins_iff_wordJoins, fun room r s hs e => ⟨?_, ?_⟩⟩
  · have reads := Reading.reads_nested_block room
    rw [Reading.expression_eq_sequence, Reading.sequence_of_ok reads.advances hs]
  · have settled := (Reading.reads_nested_block room).settles r s hs
    exact Reading.goesOn_proceed settled.2 e

-- In front of a parenthesis the word ends, so that it is read behind the block `a`.
theorem connective_lookaheads_agree_of_or : WordJoins "a oR(b)".toList 2 .or ∧
    wordEnd "a oR(b)".toList 2 = 4 ∧ ∃ s, Reading.block none (.start "a oR(b)".toList) = .ok s ∧
      Reading.GoesOn "a oR(b)".toList 2 s.skipBlanks s.next :=
  have ⟨whole, found, _, goesOn⟩ := connective_lookaheads_agree "a oR(b)".toList 2
  have joins := (whole .or).mpr ⟨by decide, by rintro _ ⟨⟩; decide⟩
  let s : Reading := ⟨[⟨.bare, ['a']⟩], " oR(b)".toList, ⟨0, some .plain, .block⟩⟩
  ⟨joins, (found .or joins).2, s, rfl, (goesOn 0 (.start "a oR(b)".toList) s rfl rfl).2⟩

-- In front of a quote the connective stands alone, but the word goes on.
example : standalone? "or“b”".toList = some .or ∧ nextJoins "or“b”".toList = false := by decide

end BoolSearch
