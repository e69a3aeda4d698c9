import BoolSearch.Proofs.Connectives

namespace BoolSearch

open Grammar

def firstSolid (kinds : List TokenKind) : Option TokenKind :=
  kinds.find? (· ≠ .blank)

-- What it means that the part `word` of a text has this kind, in front of `rest` and between parts
-- of these kinds.
def TokenKind.Sound (kind : TokenKind) (before : List TokenKind) (word rest : List Char)
    (after : List TokenKind) : Prop :=
  match kind with
  | blank            => ∃ c, isBlank c ∧ word = [c]
  | .connective spelt => Spells spelt word
  | paren .opening   => word = ['(']
  | paren .closing   => word = [')']
  | key => IsKeyName word ∧ (∀ connective, ¬Begins connective word) ∧
      (∀ c ∈ rest.head?, isLetter c = false) ∧ firstSolid after = some equals
  | equals => word = ['='] ∧ firstSolid before.reverse = some key
  | quoted => quoted? (word ++ rest) = some (word, rest) ∧ quoteStartsOperand before.getLast?
  | bare =>
      ((∃ c, word = [c]) ∨ firstSolid before.reverse = some equals ∧ IsBare word rest) ∧
      ((∃ c ∈ word.head?, isQuote c) → quoteStartsOperand before.getLast? →
        quoted? (word ++ rest) = none)

variable {previous : Option TokenKind} {kind : TokenKind} {kinds : List TokenKind}
  {text word rest : List Char} {front back parts : List Lexeme} {lexeme : Lexeme}

theorem firstSolid_of_blanks (h : ∀ other ∈ kinds, other = .blank) (hk : kind ≠ .blank)
    (others : List TokenKind) : firstSolid (kinds ++ kind :: others) = some kind := by
  have none : firstSolid kinds = none := List.find?_eq_none.mpr fun other hm => by simp [h other hm]
  rw [firstSolid, List.find?_append, ← firstSolid, none, List.find?_cons_of_pos (by simpa using hk)]
  rfl

theorem eq_blank_of_mem_blanks (gap : List Char) :
    ∀ kind ∈ (Scan.blanks gap).map Lexeme.kind, kind = .blank := by
  simp [Scan.blanks]

theorem firstSolid_blanks (gap : List Char) (hk : lexeme.kind ≠ .blank) (others : List Lexeme) :
    firstSolid ((Scan.blanks gap ++ lexeme :: others).map Lexeme.kind) = some lexeme.kind := by
  rw [List.map_append, List.map_cons]
  exact firstSolid_of_blanks (eq_blank_of_mem_blanks gap) hk _

theorem firstSolid_reverse_blanks (gap : List Char) (hk : lexeme.kind ≠ .blank)
    (front : List Lexeme) :
    firstSolid ((front ++ lexeme :: Scan.blanks gap).map Lexeme.kind).reverse =
      some lexeme.kind := by
  rw [List.map_append, List.map_cons, List.reverse_append, List.reverse_cons, List.append_assoc]
  refine firstSolid_of_blanks (fun kind hm => ?_) hk _
  exact eq_blank_of_mem_blanks gap kind (List.mem_reverse.mp hm)

namespace Grammar

variable {scan : Scan} {value : List Lexeme}

theorem kind_ne_equals_of_mem_blanks {gap : List Char} (hm : lexeme ∈ Scan.blanks gap) :
    lexeme.kind ≠ .equals := by
  obtain ⟨c, _, rfl⟩ := List.mem_map.mp hm
  simp

theorem KeyValue.kind_ne_equals (h : KeyValue text value rest) (hm : lexeme ∈ value) :
    lexeme.kind ≠ .equals := by
  cases h
  case missing => cases hm
  all_goals
    cases List.mem_singleton.mp hm
    simp

-- Of the parts that one rule takes, only an equals sign is of its kind, and it stands behind a key
-- and the blanks that follow that.
theorem Takes.exists_key {taken ahead : List Lexeme} (h : Takes previous text scan)
    (e : scan.lexemes = taken ++ lexeme :: ahead) (hk : lexeme.kind = .equals) :
    lexeme = ⟨.equals, ['=']⟩ ∧ ∃ name gap, ⟨.key, name⟩ :: Scan.blanks gap = taken := by
  cases h
  case key name gap gap' tail rest value hn hg hg' stop hv unworded _ =>
    have before : lexeme ∉ ⟨.key, name⟩ :: Scan.blanks gap := by
      intro hm
      cases hm
      case head    => cases hk
      case tail hm => exact kind_ne_equals_of_mem_blanks hm hk
    have behind : lexeme ∉ Scan.blanks gap' ++ value := by
      intro hm
      cases List.mem_append.mp hm
      case inl hm => exact kind_ne_equals_of_mem_blanks hm hk
      case inr hm => exact hv.kind_ne_equals hm hk
    have e : (⟨.key, name⟩ :: Scan.blanks gap) ++ ⟨.equals, ['=']⟩ :: (Scan.blanks gap' ++ value) =
        taken ++ lexeme :: ahead := by simpa [Scan.lexemes] using e
    obtain ⟨et, el, _⟩ := (List.append_cons_inj_of_notMem before behind).mp e
    exact ⟨el.symm, name, gap, et⟩
  all_goals
    rw [Scan.lexemes_one] at e
    obtain ⟨-, e⟩ | ⟨-, e⟩ := List.append_eq_singleton_iff.mp e.symm
    all_goals cases e
    cases hk

theorem exists_key_of_equals (h : lexemes previous text = front ++ lexeme :: back)
    (hk : lexeme.kind = .equals) : lexeme = ⟨.equals, ['=']⟩ ∧
      ∃ others name gap, others ++ ⟨.key, name⟩ :: Scan.blanks gap = front := by
  obtain ⟨before, taken, _, _, scan, rfl, _, es, _, takes⟩ := exists_takes h
  have ⟨equals, name, gap, e⟩ := takes.exists_key es hk
  exact ⟨equals, before, name, gap, by rw [e]⟩

end Grammar

namespace Lexeme

theorem lastKind_none (front : List Lexeme) :
    lastKind none front = (front.map Lexeme.kind).getLast? := by
  simp [lastKind, List.getLast?_map]

theorem sound_of_takes {scan : Scan} (h : Takes (lastKind none front) (scan.head.text ++ rest) scan)
    (more : scan.more <+: back) :
    scan.head.kind.Sound (front.map Lexeme.kind) scan.head.text rest (back.map Lexeme.kind) := by
  rw [lastKind_none] at h
  generalize e : scan.head.text ++ rest = text at h
  cases h
  case blank _ hb          => exact ⟨_, hb, rfl⟩
  case connective spells _ => exact spells
  case opening             => rfl
  case closing             => rfl
  case key name gap gap' tail rest' value hn hg hg' stop hv unworded e' =>
    obtain ⟨later, rfl⟩ := more
    have e : rest = gap ++ '=' :: (gap' ++ tail) := by simpa [← e'] using e
    rw [List.append_assoc] at e'
    refine ⟨hn, fun connective begins => ?_, ?_, ?_⟩
    · exact unworded connective (e' ▸ begins.append _)
    · rw [e]
      exact isLetter_head?_of_isBlanks hg
    · have solid : (⟨.equals, ['=']⟩ : Lexeme).kind ≠ .blank := by simp
      simpa using firstSolid_blanks gap solid (Scan.blanks gap' ++ value ++ later)
  case quoted starts hq _ =>
    exact ⟨quoted?_eq_some_iff.mpr ⟨hq, rfl⟩, starts⟩
  case bare c text hb hp unworded unkeyed unquoted =>
    rw [← e] at unquoted
    exact ⟨.inl ⟨c, rfl⟩, fun _ starts => quoted?_eq_none_iff.mpr (unquoted starts)⟩

-- An opening quote that starts no quoted value is not closed.
theorem sound_of_keyValue (h : KeyValue (lexeme.text ++ rest) [lexeme] rest)
    (front : List Lexeme) (gap : List Char) (after : List TokenKind) :
    lexeme.kind.Sound ((front ++ ⟨.equals, ['=']⟩ :: Scan.blanks gap).map Lexeme.kind) lexeme.text
      rest after := by
  have solid : (⟨.equals, ['=']⟩ : Lexeme).kind ≠ .blank := by simp
  have behind := firstSolid_reverse_blanks gap solid front
  have starts : quoteStartsOperand
      ((front ++ ⟨.equals, ['=']⟩ :: Scan.blanks gap).map Lexeme.kind).getLast? := by
    rw [← lastKind_none]
    exact starts_behind_equals front gap
  generalize e : lexeme.text ++ rest = text at h
  cases h
  case quoted hq _     => exact ⟨quoted?_eq_some_iff.mpr ⟨hq, rfl⟩, starts⟩
  case unclosed c _ hn =>
    rw [← e] at hn
    exact ⟨.inl ⟨c, rfl⟩, fun _ _ => quoted?_eq_none_iff.mpr hn⟩
  case bare hb _       =>
    refine ⟨.inr ⟨behind, hb⟩, fun ⟨c, hc, quote⟩ => ?_⟩
    exact absurd quote (ne_true_of_eq_false (hb.unquoted c hc))

theorem sound_of_lexemes_eq (h : lexemes none text = front ++ lexeme :: back) :
    lexeme.kind.Sound (front.map Lexeme.kind) lexeme.text (textOf back)
      (back.map Lexeme.kind) := by
  by_cases hk : lexeme.kind = .equals
  case pos =>
    obtain ⟨rfl, others, name, gap, rfl⟩ := exists_key_of_equals h hk
    exact ⟨rfl, firstSolid_reverse_blanks gap (by simp) others⟩
  case neg =>
    obtain ⟨scan, takes, rfl, more⟩ | ⟨c, hb, rfl⟩ | rfl | ⟨others, gap, rfl, _, hv⟩ :=
      cases_of_lexemes_eq h
    case inl         => exact sound_of_takes takes more
    case inr.inl     => exact ⟨c, hb, rfl⟩
    case inr.inr.inl => exact absurd rfl hk
    case inr.inr.inr => exact sound_of_keyValue hv others gap _

end Lexeme

namespace Token

variable {offset : Nat} {before after : List Token} {token : Token}

theorem exists_of_layout_eq (h : layout offset parts = before ++ token :: after) :
    ∃ front part back, front ++ part :: back = parts ∧
      front.map Lexeme.kind = before.map Token.kind ∧
      part.placed (offset + byteLength (textOf front)) = token ∧
      back.map Lexeme.kind = after.map Token.kind := by
  induction before generalizing offset parts
  case nil =>
    cases parts
    case nil => cases h
    case cons part parts =>
      obtain ⟨rfl, rfl⟩ := List.cons.inj h
      exact ⟨[], part, parts, rfl, rfl, rfl, (map_kind_layout _ parts).symm⟩
  case cons first before hi =>
    cases parts
    case nil => cases h
    case cons part parts =>
      obtain ⟨rfl, tail⟩ := List.cons.inj h
      obtain ⟨front, part', back, rfl, ef, et, eb⟩ := hi tail
      refine ⟨part :: front, part', back, rfl, by simp [ef], ?_, eb⟩
      rw [← et]
      simp [Nat.add_assoc]

end Token

-- In the tokens of any text, each token is what its kind says.
theorem token_kinds_sound {before after : List Token} {token : Token}
    (h : tokenize text = before ++ token :: after) :
    ∃ word rest, token.text? text = some word ∧ dropBytes? text token.span.stop = some rest ∧
      token.kind.Sound (before.map Token.kind) word rest (after.map Token.kind) := by
  obtain ⟨front, part, back, e, ef, rfl, eb⟩ := Token.exists_of_layout_eq h
  have whole : textOf front ++ (part.text ++ textOf back) = text := by
    rw [← flatMap_text_lexemes none text, ← e]
    simp [textOf]
  refine ⟨part.text, textOf back, ?_, ?_, ?_⟩
  · rw [← whole]
    simpa [Token.text?, Lexeme.placed] using sliceBytes?_append (textOf front) part.text _
  · rw [← whole, ← List.append_assoc]
    simpa [Lexeme.placed] using dropBytes?_append (textOf front ++ part.text) (textOf back)
  · rw [← ef, ← eb]
    exact Lexeme.sound_of_lexemes_eq e.symm

-- The quote behind the equals sign is never closed.
theorem token_kinds_sound_of_unclosed :
    tokenize "nOT AU =\"b".toList =
      [⟨.connective .not, ⟨0, 3⟩⟩, ⟨.blank, ⟨3, 4⟩⟩, ⟨.key, ⟨4, 6⟩⟩, ⟨.blank, ⟨6, 7⟩⟩,
        ⟨.equals, ⟨7, 8⟩⟩] ++ ⟨.bare, ⟨8, 9⟩⟩ :: [⟨.bare, ⟨9, 10⟩⟩] ∧
    ∃ word rest, Token.text? ⟨.bare, ⟨8, 9⟩⟩ "nOT AU =\"b".toList = some word ∧
      dropBytes? "nOT AU =\"b".toList 9 = some rest ∧
      TokenKind.bare.Sound [.connective .not, .blank, .key, .blank, .equals] word rest [.bare] := by
  have h : tokenize "nOT AU =\"b".toList =
      [⟨.connective .not, ⟨0, 3⟩⟩, ⟨.blank, ⟨3, 4⟩⟩, ⟨.key, ⟨4, 6⟩⟩, ⟨.blank, ⟨6, 7⟩⟩,
        ⟨.equals, ⟨7, 8⟩⟩] ++ ⟨.bare, ⟨8, 9⟩⟩ :: [⟨.bare, ⟨9, 10⟩⟩] := by cbv
  exact ⟨h, token_kinds_sound h⟩

end BoolSearch
