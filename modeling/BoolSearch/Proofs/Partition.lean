import BoolSearch.Query.TokenStream

namespace BoolSearch

def IsBoundary (text : List Char) (offset : Nat) : Prop :=
  ∃ before after, before ++ after = text ∧ byteLength before = offset

namespace Token

-- The tokens follow each other without a gap from byte `start` to byte `stop`. None is empty.
inductive Contiguous : Nat → List Token → Nat → Prop
  | nil : Contiguous start [] start
  | cons {kind : TokenKind} (lt : start < next) (tail : Contiguous next tokens stop) :
    Contiguous start (⟨kind, ⟨start, next⟩⟩ :: tokens) stop

-- These tokens are the parts of `after` one by one. In the whole text, `before` stands in front
-- of them.
inductive Cuts : List Char → List Token → List Char → Prop
  | nil : Cuts before [] []
  | cons {kind : TokenKind} (ne : piece ≠ []) (tail : Cuts (before ++ piece) tokens after) :
    Cuts before (⟨kind, ⟨byteLength before, byteLength (before ++ piece)⟩⟩ :: tokens)
      (piece ++ after)

end Token

theorem byteLength_pos {text : List Char} (h : text ≠ []) : 0 < byteLength text := by
  have := List.length_pos_iff.mpr h
  have := length_le_byteLength text
  omega

namespace Token.Cuts

variable {before after : List Char} {tokens : List Token}

theorem contiguous (h : Cuts before tokens after) :
    Contiguous (byteLength before) tokens (byteLength (before ++ after)) := by
  induction h
  case nil => simpa using Contiguous.nil
  case cons piece before tokens after kind ne tail hi =>
    have lt : byteLength before < byteLength (before ++ piece) := by
      have := byteLength_pos ne
      rw [byteLength_append]
      omega
    rw [List.append_assoc] at hi
    exact .cons lt hi

theorem isBoundary (h : Cuts before tokens after) (hm : token ∈ tokens) :
    IsBoundary (before ++ after) token.span.start ∧
      IsBoundary (before ++ after) token.span.stop := by
  induction h
  case nil => cases hm
  case cons piece before tokens after kind ne tail hi =>
    cases hm
    case head => exact ⟨⟨before, piece ++ after, rfl, rfl⟩, ⟨before ++ piece, after, by simp, rfl⟩⟩
    case tail hm =>
      rw [← List.append_assoc]
      exact hi hm

theorem mapM_text? (h : Cuts before tokens after) :
    ∃ pieces, tokens.mapM (·.text? (before ++ after)) = some pieces ∧ pieces.flatten = after := by
  induction h
  case nil => exact ⟨[], rfl, rfl⟩
  case cons piece before tokens after kind ne tail hi =>
    have ⟨pieces, hp, hf⟩ := hi
    have ht : text? ⟨kind, ⟨byteLength before, byteLength (before ++ piece)⟩⟩
        (before ++ (piece ++ after)) = some piece := by
      rw [text?, byteLength_append]
      exact sliceBytes?_append before piece after
    rw [List.append_assoc] at hp
    refine ⟨piece :: pieces, ?_, by simp [hf]⟩
    simp only [List.mapM_cons, ht, hp]
    rfl

theorem eq_nil_iff (h : Cuts before tokens after) : tokens = [] ↔ after = [] := by
  cases h
  case nil       => simp
  case cons ne _ => simp [ne]

end Token.Cuts

namespace Scan

theorem text_ne_nil_of_mem_blanks {text : List Char} (h : lexeme ∈ blanks text) :
    lexeme.text ≠ [] := by
  have ⟨c, _, hc⟩ := List.mem_map.mp h
  simp [← hc]

theorem head_text_ne_nil_atQuote (c : Char) (text : List Char) :
    (atQuote c text).head.text ≠ [] := by
  simp only [atQuote]
  split
  case h_1 value rest h =>
    rintro rfl
    simp only [quoted?] at h
    split at h <;> simp at h
  case h_2 => simp [one]

theorem text_ne_nil_of_mem_keyValue {text : List Char} (h : lexeme ∈ (keyValue text).1) :
    lexeme.text ≠ [] := by
  cases text
  case nil => cases h
  case cons c text =>
    simp only [keyValue] at h
    split at h
    · rw [List.mem_singleton.mp h]
      exact head_text_ne_nil_atQuote c text
    · split at h
      case h_1 => cases h
      case h_2 ne =>
        rw [List.mem_singleton.mp h]
        exact ne

theorem text_ne_nil_of_mem_more (h : lexeme ∈ (next previous c text).more) : lexeme.text ≠ [] := by
  simp only [next] at h
  split at h
  case isTrue => cases h
  case isFalse =>
    split at h
    case h_1 => cases h
    case h_2 =>
      split at h
      case isTrue => cases h
      case isFalse =>
        split at h
        case isTrue => cases h
        case isFalse =>
          split at h
          case h_1 head _ =>
            simp only [atKey, List.mem_append, List.mem_cons, or_assoc] at h
            obtain h | rfl | h | h := h
            · exact text_ne_nil_of_mem_blanks h
            · simp
            · exact text_ne_nil_of_mem_blanks h
            · exact text_ne_nil_of_mem_keyValue h
          case h_2 =>
            split at h
            case isTrue =>
              simp only [atQuote] at h
              split at h <;> cases h
            case isFalse => cases h

end Scan

namespace TokenStream

-- A stream takes the parts of a key and its value from the text at once, but gives them out one by
-- one.
def remaining (s : TokenStream) : List Char :=
  s.pending.flatMap Lexeme.text ++ s.rest

def Solid (s : TokenStream) : Prop :=
  ∀ lexeme ∈ s.pending, lexeme.text ≠ []

theorem solid_ofText (text : List Char) : (ofText text).Solid :=
  fun _ h => nomatch h

-- What a step gives out is either pending or the first part of the next scan.
theorem next?_cases {s t : TokenStream} (h : s.next? = some (token, t)) :
    (∃ lexeme pending, s.pending = lexeme :: pending ∧ s.give lexeme pending s.rest = (token, t)) ∨
    (∃ c text, s.pending = [] ∧ s.rest = c :: text ∧
      s.give (Scan.next s.previous c text).head (Scan.next s.previous c text).more
        (Scan.next s.previous c text).rest = (token, t)) := by
  simp only [next?] at h
  split at h
  case h_1 lexeme pending hp => exact .inl ⟨lexeme, pending, hp, Option.some.inj h⟩
  case h_2 c text hp hr      => exact .inr ⟨c, text, hp, hr, Option.some.inj h⟩
  case h_3                   => cases h

-- A step cuts a token off what remains and moves on by its length.
theorem next?_cuts {s t : TokenStream} (hs : s.Solid) (h : s.next? = some (token, t)) :
    ∃ piece, piece ≠ [] ∧ piece ++ t.remaining = s.remaining ∧ t.Solid ∧
      t.offset = s.offset + byteLength piece ∧ token.span = ⟨s.offset, t.offset⟩ := by
  obtain ⟨lexeme, pending, hp, h⟩ | ⟨c, text, hp, hr, h⟩ := next?_cases h
  case inl =>
    cases h
    refine ⟨lexeme.text, hs lexeme (by simp [hp]), ?_, ?_, rfl, rfl⟩
    · simp [remaining, hp]
    · exact fun other hm => hs other (hp ▸ .tail _ hm)
  case inr =>
    cases h
    refine ⟨_, Scan.head_text_ne_nil_next s.previous c text, ?_, ?_, rfl, rfl⟩
    · have all := Scan.consumed_append_rest_next s.previous c text
      simp only [Scan.consumed, Scan.lexemes, List.flatMap_cons, List.append_assoc] at all
      simp [remaining, hp, hr, all]
    · exact fun _ hm => Scan.text_ne_nil_of_mem_more hm

theorem toList_of_next?_eq_none {s : TokenStream} (h : s.next? = none) : s.toList = [] := by
  rw [toList]
  split
  case h_1 => rfl
  case h_2 e => simp [h] at e

theorem toList_of_next?_eq_some {s t : TokenStream} (h : s.next? = some (token, t)) :
    s.toList = token :: t.toList := by
  rw [toList]
  split
  case h_1 e => simp [h] at e
  case h_2 e =>
    rw [h] at e
    cases e
    rfl

theorem next?_eq_none_iff {s : TokenStream} : s.next? = none ↔ s.pending = [] ∧ s.rest = [] := by
  simp only [next?]
  split <;> simp_all

-- By induction on the stream: every step cuts off one more token, to the end of the text.
theorem cuts_toList {s : TokenStream} (hs : s.Solid) (before : List Char)
    (hb : byteLength before = s.offset) : Token.Cuts before s.toList s.remaining := by
  fun_induction toList s generalizing before
  case case1 s h =>
    have ⟨hp, hr⟩ := next?_eq_none_iff.mp h
    rw [remaining, hp, hr]
    exact .nil
  case case2 s token t h hi =>
    have ⟨piece, ne, hr, ht, ho, hspan⟩ := next?_cuts hs h
    have hb' : byteLength (before ++ piece) = t.offset := by rw [byteLength_append, hb, ho]
    have hspan : token.span = ⟨byteLength before, byteLength (before ++ piece)⟩ := by
      rw [hspan, hb, hb']
    obtain ⟨kind, span⟩ := token
    cases hspan
    rw [← hr]
    exact .cons ne (hi ht _ hb')

theorem fst_nth (s : TokenStream) (n : Nat) : (s.nth n).1 = s.toList[n]? := by
  induction n generalizing s <;> rw [nth.eq_def] <;> cases h : s.next?
  case zero.none   => simp [toList_of_next?_eq_none h]
  case zero.some   => simp [toList_of_next?_eq_some h]
  case succ.none   => simp [toList_of_next?_eq_none h]
  case succ.some n hi p =>
    rw [toList_of_next?_eq_some h]
    exact hi p.2

def behind (s : TokenStream) : Option TokenKind :=
  (s.pending.getLast?.map Lexeme.kind).or s.previous

theorem behind_give (s : TokenStream) (lexeme : Lexeme) (pending : List Lexeme) (rest : List Char) :
    (s.give lexeme pending rest).2.behind = some (pending.getLast?.getD lexeme).kind := by
  rw [behind, give]
  cases pending.getLast? <;> rfl

theorem layout_give (s : TokenStream) (lexeme : Lexeme) (pending others : List Lexeme)
    (rest : List Char) :
    (s.give lexeme pending rest).1 :: Token.layout (s.give lexeme pending rest).2.offset others =
      Token.layout s.offset (lexeme :: others) := rfl

-- A stream has the pending parts to give out, and then the parts of the text that is left.
theorem toList_eq_layout (s : TokenStream) :
    s.toList = Token.layout s.offset (s.pending ++ lexemes s.behind s.rest) := by
  fun_induction toList s
  case case1 s h =>
    have ⟨hp, hr⟩ := next?_eq_none_iff.mp h
    simp [hp, hr]
  case case2 s token t h hi =>
    rw [hi]
    obtain ⟨lexeme, pending, hp, h⟩ | ⟨c, text, hp, hr, h⟩ := next?_cases h
    case inl =>
      have hb : (s.give lexeme pending s.rest).2.behind = s.behind := by
        rw [behind_give, behind, hp, List.getLast?_cons]
        rfl
      have hl := layout_give s lexeme pending (pending ++ lexemes s.behind s.rest) s.rest
      rw [h] at hb hl
      cases h
      rw [hb, hp]
      exact hl
    case inr =>
      have hb := behind_give s (Scan.next s.previous c text).head (Scan.next s.previous c text).more
        (Scan.next s.previous c text).rest
      rw [h] at hb
      cases h
      rw [hb, hp, hr, behind, hp, lexemes]
      rfl

theorem toList_ofText (text : List Char) : (ofText text).toList = tokenize text :=
  toList_eq_layout _

end TokenStream

theorem Token.cuts_tokenize (text : List Char) : Cuts [] (tokenize text) text := by
  rw [← TokenStream.toList_ofText]
  exact TokenStream.cuts_toList (TokenStream.solid_ofText text) [] rfl

-- The tokens of any text are finitely many and partition it. So each of them has a text, and
-- these texts together are the text.
theorem tokenize_partitions (text : List Char) :
    (∀ n, ((TokenStream.ofText text).nth n).1 = (tokenize text)[n]?) ∧
    Token.Contiguous 0 (tokenize text) (byteLength text) ∧
    (∀ token ∈ tokenize text,
      IsBoundary text token.span.start ∧ IsBoundary text token.span.stop) ∧
    (∃ pieces, (tokenize text).mapM (·.text? text) = some pieces ∧ pieces.flatten = text) ∧
    (tokenize text = [] ↔ text = []) := by
  have cuts := Token.cuts_tokenize text
  refine ⟨fun n => ?_, cuts.contiguous, fun _ => cuts.isBoundary, cuts.mapM_text?, cuts.eq_nil_iff⟩
  rw [← TokenStream.toList_ofText]
  exact TokenStream.fst_nth _ n

end BoolSearch
