import BoolSearch.Proofs.Overlap
import BoolSearch.Proofs.Partition

namespace BoolSearch

open Grammar

def Lexeme.placed (part : Lexeme) (offset : Nat) : Token :=
  ⟨part.kind, ⟨offset, offset + byteLength part.text⟩⟩

namespace Token

variable {offset : Nat} {parts : List Lexeme} {token other : Token}

theorem mem_layout_iff : token ∈ layout offset parts ↔ ∃ front part back,
    front ++ part :: back = parts ∧ part.placed (offset + byteLength (textOf front)) = token := by
  constructor
  case mp =>
    intro h
    induction parts generalizing offset
    case nil => cases h
    case cons part parts hi =>
      cases h
      case head => exact ⟨[], part, parts, rfl, rfl⟩
      case tail h =>
        obtain ⟨front, part', back, rfl, rfl⟩ := hi h
        exact ⟨part :: front, part', back, rfl, by simp [Nat.add_assoc]⟩
  case mpr =>
    rintro ⟨front, part, back, rfl, rfl⟩
    rw [layout_append]
    exact List.mem_append_right _ (.head _)

theorem offset_le_start (h : token ∈ layout offset parts) : offset ≤ token.span.start := by
  obtain ⟨front, part, back, _, rfl⟩ := mem_layout_iff.mp h
  exact Nat.le_add_right _ _

theorem stop_le_start (h : token ∈ layout offset parts) (h' : other ∈ layout offset parts)
    (lt : token.span.start < other.span.start) : token.span.stop ≤ other.span.start := by
  induction parts generalizing offset
  case nil => cases h
  case cons part parts hi =>
    cases h
    case head =>
      cases h'
      case head    => exact absurd lt (Nat.lt_irrefl _)
      case tail h' => exact offset_le_start h'
    case tail h =>
      cases h'
      case head =>
        have := offset_le_start h
        exact absurd lt (by simp only; omega)
      case tail h' => exact hi h h'

-- Does the token start inside the value and run over the other token, which is behind the value?
structure Overruns (token value other : Token) : Prop where
  opens : value.span.start < token.span.start
  inside : token.span.start < value.span.stop
  behind : value.span.stop ≤ other.span.start
  covers : other.span.stop ≤ token.span.stop

end Token

theorem exists_token_at {text before after : List Char} {c : Char}
    (e : before ++ c :: after = text) : ∃ front part back inner inner',
      lexemes none text = front ++ part :: back ∧
      part.placed (byteLength (textOf front)) ∈ tokenize text ∧ inner ++ c :: inner' = part.text ∧
      textOf front ++ inner = before ∧ inner' ++ textOf back = after := by
  have covered : textOf (lexemes none text) = before ++ c :: after :=
    (flatMap_text_lexemes none text).trans e.symm
  obtain ⟨front, part, back, inner, inner', et, ec, eb, er⟩ := exists_part_of_textOf_eq covered
  have hm : part.placed (byteLength (textOf front)) ∈ tokenize text :=
    Token.mem_layout_iff.mpr ⟨front, part, back, et, by simp⟩
  exact ⟨front, part, back, inner, inner', et.symm, hm, ec, eb, er⟩

namespace Grammar

variable {form : Form} {stage : Stage} {before after : List Lexeme}

-- A value token that starts inside a value and reaches into a word of letters behind it.
theorem EndsInValue.overruns {token : Lexeme} {front inner inner' rest : List Char} {c : Char}
    (h : EndsInValue front before) (part : Lexeme) (hv : IsValue token rest)
    (et : inner ++ c :: inner' = token.text) (eb : front ++ inner = textOf before)
    (er : c :: inner' ++ rest = part.text ++ textOf after) (hl : ∀ d ∈ part.text, isLetter d) :
    ∃ value ∈ Token.layout 0 (before ++ part :: after), value.kind.IsValue ∧
      (token.placed (byteLength front)).Overruns value
        (part.placed (byteLength (textOf before))) := by
  obtain ⟨front', value, back, lead, trail, rfl, kind, hlead, htrail, rfl, ev⟩ := h
  obtain ⟨reach, ec⟩ := hv.exists_append_of_letters et hl er
  refine ⟨value.placed (byteLength (textOf front')), ?_, kind, ?_⟩
  · exact Token.mem_layout_iff.mpr ⟨front', value, back ++ part :: after, by simp⟩
  · have := byteLength_pos hlead
    have := byteLength_pos htrail
    have hb := congrArg byteLength eb
    have ht := congrArg byteLength et
    rw [← ec] at ht
    simp only [textOf_append, textOf_cons, ← ev, byteLength_append] at hb ht
    constructor <;>
      simp only [Lexeme.placed, ← ev, textOf_append, textOf_cons, byteLength_append] <;> omega

theorem Row.joining_ne_nil {part : Lexeme} (h : Row form stage (before ++ part :: after))
    (joins : part.kind.IsJoining) : part.text ≠ [] := by
  obtain ⟨kind, word⟩ := part
  obtain ⟨connective, hn, rfl⟩ := TokenKind.isJoining_iff.mp joins
  exact ne_nil_of_spells (h.fits_joining hn).1

theorem Row.mem_tokenize_or_overrun {part : Lexeme}
    (h : Row form stage (before ++ part :: after)) (joins : part.kind.IsJoining) :
    part.placed (byteLength (textOf before)) ∈ tokenize (textOf (before ++ part :: after)) ∨
      ∃ value ∈ Token.layout 0 (before ++ part :: after),
        ∃ token ∈ tokenize (textOf (before ++ part :: after)), value.kind.IsValue ∧
          token.kind.IsValue ∧ token.Overruns value (part.placed (byteLength (textOf before))) := by
  obtain ⟨kind, word⟩ := part
  obtain ⟨connective, hn, rfl⟩ := TokenKind.isJoining_iff.mp joins
  have ⟨spells, _⟩ := h.fits_joining hn
  have ⟨c, word', ew⟩ := List.exists_cons_of_ne_nil (ne_nil_of_spells spells)
  have e : textOf before ++ c :: (word' ++ textOf after) =
      textOf (before ++ ⟨.connective connective, word⟩ :: after) := by simp [ew]
  obtain ⟨front, token, back, inner, inner', et, hm, ec, eb, er⟩ := exists_token_at e
  have er : c :: inner' ++ textOf back = word ++ textOf after := by
    rw [ew, List.cons_append, er]
    rfl
  obtain ⟨rfl, rfl⟩ | ⟨hv, inside⟩ := h.eq_or_endsInValue hn et ec eb er
  case inl =>
    rw [List.append_nil] at eb
    exact .inl (eb ▸ hm)
  case inr =>
    obtain ⟨value, hval, kind, overruns⟩ :=
      inside.overruns ⟨_, word⟩ hv ec eb er (isLetter_of_spells spells)
    exact .inr ⟨value, hval, _, hm, kind, hv.kind, overruns⟩

end Grammar

variable {form : Form} {parts : List Lexeme}

theorem textOf_flatMap {f : Lexeme → List Lexeme} (h : ∀ part, textOf (f part) = part.text) :
    textOf (parts.flatMap f) = textOf parts := by
  induction parts
  case nil => rfl
  case cons part parts hi => simp [h, hi]

theorem Lexeme.textOf_pieces (part : Lexeme) : textOf (part.pieces form) = part.text := by
  rw [pieces]
  split
  case isTrue  => exact flatMap_text_lexemes none part.text
  case isFalse => simp

theorem mem_layout_flatMap_pieces {token : Token} (hm : token ∈ Token.layout 0 parts)
    (hk : token.kind ≠ .bare) : token ∈ Token.layout 0 (parts.flatMap (Lexeme.pieces form)) := by
  obtain ⟨front, part, back, rfl, rfl⟩ := Token.mem_layout_iff.mp hm
  refine Token.mem_layout_iff.mpr ⟨front.flatMap (Lexeme.pieces form), part,
    back.flatMap (Lexeme.pieces form), ?_, ?_⟩
  · rw [List.flatMap_append, List.flatMap_cons, Lexeme.pieces_of_ne_bare hk]
    rfl
  · rw [textOf_flatMap Lexeme.textOf_pieces]

-- An `AND` or `OR` that has been read is a token, unless a value token starts inside a value in
-- front of it and runs over it. That takes a key that starts with a connective, or a quote that
-- stands directly behind a connective in a bare value without a key.
theorem joining_mem_tokenize {maxDepth : Nat} {text : List Char} {r : Reading}
    (h : Reading.ofText maxDepth text = .ok r) :
    (∀ join ∈ Token.layout 0 r.lexemes, join.kind.IsJoining → (join ∈ tokenize text ↔
      ¬∃ value ∈ Token.layout 0 r.lexemes, ∃ token ∈ tokenize text,
        value.kind.IsValue ∧ token.kind.IsValue ∧ token.Overruns value join)) ∧
    ((∀ form, r.progress.form = some form → Untangled form r.lexemes) →
      ∀ join ∈ Token.layout 0 r.lexemes, join.kind.IsJoining → join ∈ tokenize text) := by
  obtain ⟨form, parts, hs, rfl, rfl⟩ := Reading.ofText_eq_ok_iff.mp h
  simp only [Reading.lexemes_finished, Reading.form_finished]
  constructor
  case left =>
    intro join hj joins
    obtain ⟨before, part, after, rfl, rfl⟩ := Token.mem_layout_iff.mp hj
    rw [Nat.zero_add]
    constructor
    case mp =>
      rintro hm ⟨value, _, token, ht, _, _, ⟨opens, inside, behind, covers⟩⟩
      have := Token.stop_le_start ht hm (Nat.lt_of_lt_of_le inside behind)
      have := byteLength_pos (hs.row.joining_ne_nil joins)
      simp only [Lexeme.placed] at *
      omega
    case mpr => exact (hs.row.mem_tokenize_or_overrun joins).resolve_right
  case right =>
    intro untangled join hj joins
    rw [tokenize, hs.row.lexemes_eq (untangled form rfl) (.inr ⟨rfl, rfl⟩)]
    exact mem_layout_flatMap_pieces hj (by obtain e | e := joins <;> simp [e])

-- One sentence with a quote behind a connective, and one with none.
theorem joining_mem_tokenize_of_quotes :
    (∃ r, Reading.ofText 0 "xor\"b OR c\"".toList = .ok r ∧
      (⟨.connective .or, ⟨6, 8⟩⟩ ∈ tokenize "xor\"b OR c\"".toList ↔
        ¬∃ value ∈ Token.layout 0 r.lexemes, ∃ token ∈ tokenize "xor\"b OR c\"".toList,
          value.kind.IsValue ∧ token.kind.IsValue ∧
            token.Overruns value ⟨.connective .or, ⟨6, 8⟩⟩)) ∧
    ⟨.connective .or, ⟨3, 5⟩⟩ ∈ tokenize "b\" OR c\"".toList := by
  constructor
  case left =>
    refine ⟨_, by cbv, (joining_mem_tokenize (show Reading.ofText 0 _ = .ok _ by cbv)).1 _ ?_
      (.inr rfl)⟩
    decide
  case right =>
    refine (joining_mem_tokenize (show Reading.ofText 0 _ = .ok _ by cbv)).2 (fun form hf => ?_) _
      (by decide) (.inr rfl)
    cases hf
    constructor
    case keys   => decide
    case values =>
      intro _ part hp hk hq
      obtain ⟨connective, hc⟩ := hq.exists_contains
      clear hq
      revert connective part
      decide

-- The quote behind the `or` of the first value opens a quoted value. It is closed at the end only.
theorem joining_lost : ¬∀ (maxDepth : Nat) (text : List Char) (r : Reading),
    Reading.ofText maxDepth text = .ok r → ∀ join ∈ Token.layout 0 r.lexemes,
      join.kind.IsJoining → join ∈ tokenize text := by
  intro survives
  have hm := survives 0 "xor\"b OR c\"".toList _ (by cbv) ⟨.connective .or, ⟨6, 8⟩⟩ (by decide)
    (.inr rfl)
  have ht : tokenize "xor\"b OR c\"".toList =
      [⟨.bare, ⟨0, 1⟩⟩, ⟨.connective .or, ⟨1, 3⟩⟩, ⟨.quoted, ⟨3, 11⟩⟩] := by cbv
  rw [ht] at hm
  exact absurd hm (by decide)

end BoolSearch
