import BoolSearch.Command.Record
import BoolSearch.Proofs.Invariance

namespace BoolSearch

open Grammar

def normalized? (text : List Char) : Option (List Char) :=
  ((tokenize text).mapM (Token.display? · text)).map List.flatten

def Lexeme.shown (lexeme : Lexeme) : Lexeme :=
  ⟨lexeme.kind, lexeme.display⟩

theorem mapM_eq_some_of_forall₂ {α β γ : Type} {f : α → Option γ} {g : β → γ} {as : List α}
    {bs : List β} (h : List.Forall₂ (fun a b => f a = some (g b)) as bs) :
    as.mapM f = some (bs.map g) := by
  induction h
  case nil          => rfl
  case cons ha _ hi =>
    rw [List.mapM_cons, ha, hi]
    rfl

def Lexeme.element (lexeme : Lexeme) : Element :=
  ⟨lexeme.kind.style, lexeme.display⟩

section Characters

variable {text text' : List Char}

theorem utf8Size_of_isLetter {c : Char} (h : isLetter c) : c.utf8Size = 1 := by
  have hn := isLetter_iff.mp h
  have e : c.toNat = c.val.toNat := rfl
  rw [Char.utf8Size_eq_one_iff, UInt32.le_iff_toNat_le]
  change c.val.toNat ≤ 127
  omega

theorem byteLength_eq_sum (text : List Char) : byteLength text = (text.map Char.utf8Size).sum := by
  induction text
  case nil          => rfl
  case cons c text hi => rw [byteLength_cons, hi, List.map_cons, List.sum_cons]

theorem byteLength_congr (h : text.map Char.utf8Size = text'.map Char.utf8Size) :
    byteLength text = byteLength text' := by
  rw [byteLength_eq_sum, h, byteLength_eq_sum]

theorem byteOffset_congr (h : text.map Char.utf8Size = text'.map Char.utf8Size) (position : Nat) :
    byteOffset text position = byteOffset text' position := by
  apply byteLength_congr
  rw [List.map_take, h, List.map_take]

theorem map_typical_of_letters (h : ∀ c ∈ text, isLetter c) :
    text.map typical = text.map Char.toLower :=
  List.map_congr_left fun c hc => by simp [typical, h c hc]

theorem map_utf8Size_of_letters (h : ∀ c ∈ text, isLetter c) :
    text.map Char.utf8Size = List.replicate text.length 1 :=
  List.map_eq_replicate_iff.mpr fun c hc => utf8Size_of_isLetter (h c hc)

end Characters

namespace Token

-- By induction on the parts. Each token is shown as the part that it stands for.
theorem forall₂_display_layout (before : List Char) (parts : List Lexeme) :
    List.Forall₂ (fun token part => token.kind = part.kind ∧
        token.display? (before ++ textOf parts) = some part.display)
      (layout (byteLength before) parts) parts := by
  induction parts generalizing before
  case nil => exact .nil
  case cons part parts hi =>
    have later := hi (before ++ part.text)
    rw [byteLength_append, List.append_assoc] at later
    refine .cons ⟨rfl, ?_⟩ later
    obtain ⟨kind, text⟩ := part
    cases kind
    case connective => rfl
    all_goals exact sliceBytes?_append before text (textOf parts)

theorem forall₂_display_tokenize (text : List Char) :
    List.Forall₂ (fun token part => token.kind = part.kind ∧
        token.display? text = some part.display) (tokenize text) (lexemes none text) := by
  have shown := forall₂_display_layout [] (lexemes none text)
  rwa [List.nil_append, textOf, flatMap_text_lexemes] at shown

-- Parts of the same kinds and lengths have the same places.
theorem layout_map {f : Lexeme → Lexeme} {parts : List Lexeme} {offset : Nat}
    (hk : ∀ part ∈ parts, (f part).kind = part.kind)
    (hb : ∀ part ∈ parts, byteLength (f part).text = byteLength part.text) :
    layout offset (parts.map f) = layout offset parts := by
  induction parts generalizing offset
  case nil => rfl
  case cons part parts hi =>
    have ⟨hk, hk'⟩ := List.forall_mem_cons.mp hk
    have ⟨hb, hb'⟩ := List.forall_mem_cons.mp hb
    rw [List.map_cons, layout, layout, hk, hb, hi hk' hb']

end Token

-- Parts that make up one text are the same if they agree in the classes of their characters.
theorem eq_of_map_typical_eq {parts parts' : List Lexeme}
    (h : parts.map Lexeme.typical = parts'.map Lexeme.typical) (e : textOf parts = textOf parts') :
    parts = parts' := by
  induction parts generalizing parts'
  case nil =>
    cases parts'
    case nil  => rfl
    case cons => cases h
  case cons part parts hi =>
    cases parts'
    case nil => cases h
    case cons part' parts' =>
      have ⟨head, tail⟩ := List.cons.inj h
      have kinds : part.kind = part'.kind := congrArg (·.kind) head
      have lengths : part.text.length = part'.text.length := by
        simpa [Lexeme.typical] using congrArg (·.text.length) head
      obtain ⟨texts, e⟩ := List.append_inj e lengths
      rw [hi tail e]
      obtain ⟨kind, text⟩ := part
      cases kinds
      cases texts
      rfl

section Shown

variable {previous : Option TokenKind} {text : List Char} {part : Lexeme}

theorem map_typical_display (h : part ∈ lexemes previous text) :
    part.display.map typical = part.text.map typical := by
  obtain ⟨kind, word⟩ := part
  cases kind
  case connective connective =>
    have spells := (shaped_of_mem_lexemes h).spells
    have spelling : Spells connective connective.spelling := rfl
    change connective.spelling.map typical = word.map typical
    rw [map_typical_of_letters (isLetter_of_spells spelling),
      map_typical_of_letters (isLetter_of_spells spells), spells]
  all_goals rfl

theorem map_utf8Size_display (h : part ∈ lexemes previous text) :
    part.display.map Char.utf8Size = part.text.map Char.utf8Size := by
  obtain ⟨kind, word⟩ := part
  cases kind
  case connective connective =>
    have spells := (shaped_of_mem_lexemes h).spells
    have spelling : Spells connective connective.spelling := rfl
    change connective.spelling.map Char.utf8Size = word.map Char.utf8Size
    rw [map_utf8Size_of_letters (isLetter_of_spells spelling),
      map_utf8Size_of_letters (isLetter_of_spells spells), length_of_spells spelling,
      length_of_spells spells]
  all_goals rfl

-- The parts as they are shown agree with the parts in whatever showing them keeps.
theorem map_textOf_shown {α : Type} {f : Char → α}
    (h : ∀ part ∈ lexemes previous text, part.display.map f = part.text.map f) :
    (textOf ((lexemes previous text).map Lexeme.shown)).map f = text.map f := by
  have e : text = textOf (lexemes previous text) := (flatMap_text_lexemes previous text).symm
  conv_rhs => rw [e]
  rw [textOf, textOf, List.flatMap_map, List.map_flatMap, List.map_flatMap, List.flatMap_def,
    List.flatMap_def]
  exact congrArg List.flatten (List.map_congr_left h)

theorem display_shown (part : Lexeme) : part.shown.display = part.display := by
  obtain ⟨kind, text⟩ := part
  cases kind <;> rfl

theorem lexemes_shown (text : List Char) :
    lexemes none (textOf ((lexemes none text).map Lexeme.shown)) =
      (lexemes none text).map Lexeme.shown := by
  apply eq_of_map_typical_eq
  case h =>
    rw [← lexemes_typical, map_textOf_shown fun part => map_typical_display, lexemes_typical,
      List.map_map]
    refine List.map_congr_left fun part hp => ?_
    rw [Function.comp_apply, Lexeme.typical, Lexeme.shown, Lexeme.typical, map_typical_display hp]
  case e => exact flatMap_text_lexemes none _

theorem normalized?_eq (text : List Char) :
    normalized? text = some (textOf ((lexemes none text).map Lexeme.shown)) := by
  have shown : (tokenize text).mapM (Token.display? · text) =
      some ((lexemes none text).map Lexeme.display) :=
    mapM_eq_some_of_forall₂ ((Token.forall₂_display_tokenize text).imp fun _ _ h => h.2)
  rw [normalized?, shown, textOf, List.flatMap_map, List.flatMap_def]
  rfl

theorem elements?_accepted (text : List Char) :
    (Highlight.accepted (tokenize text)).elements? text =
      some ((lexemes none text).map Lexeme.element) := by
  refine mapM_eq_some_of_forall₂ ((Token.forall₂_display_tokenize text).imp fun token part h => ?_)
  rw [h.1, h.2]
  rfl

theorem plainLine_accepted (locale : Locale) (text : List Char) :
    Command.plainLine locale text (.accepted (tokenize text)) =
      "ok: ".toList ++ textOf ((lexemes none text).map Lexeme.shown) := by
  have shown : Command.shown (.accepted (tokenize text)) text =
      textOf ((lexemes none text).map Lexeme.shown) := by
    rw [Command.shown, elements?_accepted, Option.getD_some, textOf, List.flatMap_map,
      List.flatMap_map]
    rfl
  exact congrArg ("ok: ".toList ++ ·) shown

theorem tokenize_shown (text : List Char) :
    tokenize (textOf ((lexemes none text).map Lexeme.shown)) = tokenize text := by
  rw [tokenize, lexemes_shown, tokenize]
  exact Token.layout_map (fun _ _ => rfl) fun part hp => byteLength_congr (map_utf8Size_display hp)

theorem normalized?_shown (text : List Char) :
    normalized? (textOf ((lexemes none text).map Lexeme.shown)) =
      some (textOf ((lexemes none text).map Lexeme.shown)) := by
  rw [normalized?_eq, lexemes_shown, List.map_map]
  congr 2
  exact List.map_congr_left fun part _ => congrArg (Lexeme.mk part.kind) (display_shown part)

end Shown

-- What is shown for a text is as long in bytes, is read and split in the same way and to the same
-- end, and is shown as it is.
theorem normalized_stable (text : List Char) : ∃ shown, normalized? text = some shown ∧
    (∀ locale, Command.plainLine locale text (.accepted (tokenize text)) =
      "ok: ".toList ++ shown) ∧
    byteLength shown = byteLength text ∧
    (∀ maxDepth, validate maxDepth shown = validate maxDepth text) ∧
    tokenize shown = tokenize text ∧
    normalized? shown = some shown := by
  have sizes := map_textOf_shown fun (part : Lexeme) (hp : part ∈ lexemes none text) =>
    map_utf8Size_display hp
  have classes := map_textOf_shown fun (part : Lexeme) (hp : part ∈ lexemes none text) =>
    map_typical_display hp
  refine ⟨_, normalized?_eq text, ?_, byteLength_congr sizes, ?_, tokenize_shown text,
    normalized?_shown text⟩
  · exact fun locale => plainLine_accepted locale text
  · intro maxDepth
    obtain ⟨progress, e, e'⟩ | ⟨kind, position, _, e, e'⟩ := validate_of_typical_eq maxDepth classes
    case inl => rw [e, e']
    case inr => rw [e, e', byteOffset_congr sizes]

end BoolSearch
