import BoolSearch.Proofs.Normalization

namespace BoolSearch

open Grammar

def entityMarks : List Char :=
  ['&', '<', '>', '"', '\x27']

def unescape : List Char → List Char
  | '&' :: 'a' :: 'm' :: 'p' :: ';' :: text       => '&' :: unescape text
  | '&' :: 'l' :: 't' :: ';' :: text              => '<' :: unescape text
  | '&' :: 'g' :: 't' :: ';' :: text              => '>' :: unescape text
  | '&' :: 'q' :: 'u' :: 'o' :: 't' :: ';' :: text => '"' :: unescape text
  | '&' :: '#' :: '3' :: '9' :: ';' :: text       => '\x27' :: unescape text
  | c :: text                                     => c :: unescape text
  | []                                            => []

-- `content` shows the text, and nothing in it can be taken for a tag or for another entity.
structure Escapes (content text : List Char) : Prop where
  inert : ∀ c ∈ content, c ∉ ['<', '>', '"', '\x27']
  entity : ∀ front back, front ++ '&' :: back = content →
    ∃ c ∈ entityMarks, entity c <+: '&' :: back
  decoded : unescape content = text

namespace Element

def readTag? (html : List Char) : Option (Option String × List Char) := do
  match ← html.dropPrefix? "<span".toList with
  | '>' :: rest => return (none, rest)
  | rest =>
    let rest ← rest.dropPrefix? " class=\"".toList
    let after ← (rest.dropWhile (· ≠ '"')).dropPrefix? "\">".toList
    return (some (String.ofList (rest.takeWhile (· ≠ '"'))), after)

-- The class and the text of the element at the start, and what follows the element.
def read? (html : List Char) : Option ((Option String × List Char) × List Char) := do
  let (cssClass, rest) ← readTag? html
  let after ← (rest.dropWhile (· ≠ '<')).dropPrefix? "</span>".toList
  return ((cssClass, unescape (rest.takeWhile (· ≠ '<'))), after)

def readAll? (html : List Char) : Option (List (Option String × List Char)) :=
  if html = [] then some []
  else match read? html with
    | none => none
    | some (shown, rest) =>
      if rest.length < html.length then (readAll? rest).map (shown :: ·) else none
termination_by html.length

-- What a reader of the page gets to see of an element.
def visible (element : Element) : Option String × List Char :=
  (element.style.cssClass, element.text)

end Element

theorem entity_cases (c : Char) :
    (c ∈ entityMarks ∧ ∃ name, entity c = '&' :: name ∧ ∀ d ∈ name, d ∉ entityMarks) ∨
      (c ∉ entityMarks ∧ entity c = [c]) := by
  by_cases h : c ∈ entityMarks
  case pos =>
    refine .inl ⟨h, (entity c).tail, ?_⟩
    simp only [entityMarks] at h
    fin_cases h <;> simp [entity, entityMarks]
  case neg =>
    refine .inr ⟨h, ?_⟩
    simp only [entityMarks, List.mem_cons, List.not_mem_nil, or_false, not_or] at h
    simp [entity, h]

theorem unescape_cons {c : Char} (h : c ≠ '&') (text : List Char) :
    unescape (c :: text) = c :: unescape text := by
  rw [unescape.eq_def]
  split <;> simp_all

theorem unescape_entity_append (c : Char) (text : List Char) :
    unescape (entity c ++ text) = c :: unescape text := by
  by_cases h : c ∈ entityMarks
  case pos =>
    simp only [entityMarks] at h
    fin_cases h <;> simp [entity, unescape]
  case neg =>
    obtain ⟨hc, _⟩ | ⟨_, e⟩ := entity_cases c
    case inl => exact absurd hc h
    case inr =>
      rw [e, List.singleton_append, unescape_cons]
      rintro rfl
      exact h (by decide)

theorem unescape_flatMap_entity (text : List Char) : unescape (text.flatMap entity) = text := by
  induction text
  case nil => rfl
  case cons c text hi => rw [List.flatMap_cons, unescape_entity_append, hi]

theorem inert_entity {c d : Char} (h : d ∈ entity c) : d ∉ ['<', '>', '"', '\x27'] := by
  obtain ⟨_, name, e, hn⟩ | ⟨hc, e⟩ := entity_cases c
  case inl =>
    rw [e] at h
    cases h
    case head => decide
    case tail h => exact fun hd => hn d h (List.mem_cons_of_mem '&' hd)
  case inr =>
    rw [e] at h
    cases List.mem_singleton.mp h
    exact fun hd => hc (List.mem_cons_of_mem '&' hd)

-- By induction on the text. An entity has one ampersand, at its start.
theorem exists_entity_of_ampersand {text front back : List Char}
    (h : front ++ '&' :: back = text.flatMap entity) :
    ∃ c ∈ entityMarks, entity c <+: '&' :: back := by
  induction text generalizing front
  case nil => simp at h
  case cons c text hi =>
    obtain ⟨before, _, e⟩ | ⟨ahead, e, rfl⟩ := cases_of_append_eq h.symm
    case inl => exact hi e.symm
    case inr =>
      obtain ⟨hc, name, en, hn⟩ | ⟨hc, en⟩ := entity_cases c
      case inl =>
        rw [en] at e
        cases front
        case nil =>
          obtain ⟨-, rfl⟩ := List.cons.inj e
          exact ⟨c, hc, text.flatMap entity, by rw [en]; rfl⟩
        case cons d front =>
          have hm : '&' ∈ name := by simp [(List.cons.inj e).2]
          exact absurd (List.mem_cons_self) (hn '&' hm)
      case inr =>
        have hm : '&' ∈ entity c := by simp [e]
        rw [en, List.mem_singleton] at hm
        subst hm
        exact absurd (by decide) hc

theorem escapes_flatMap_entity (text : List Char) : Escapes (text.flatMap entity) text where
  inert _ h :=
    have ⟨_, _, h⟩ := List.mem_flatMap.mp h
    inert_entity h
  entity _ _ h := exists_entity_of_ampersand h
  decoded := unescape_flatMap_entity text

theorem dropPrefix?_append (lead text : List Char) :
    (lead ++ text).dropPrefix? lead = some text :=
  List.dropPrefix?_eq_some_iff.mpr ⟨lead, rfl, beq_self_eq_true lead⟩

namespace Element

theorem readTag?_openingTag (style : Style) (rest : List Char) :
    readTag? (openingTag style ++ rest) = some (style.cssClass, rest) := by
  cases style <;> simp [openingTag, Style.cssClass, readTag?, List.dropPrefix?]

theorem read?_render (element : Element) (rest : List Char) :
    read? (element.render ++ rest) = some (element.visible, rest) := by
  have closing : ∀ c ∈ ("</span>".toList ++ rest).head?, (decide (c ≠ '<')) = false := by
    rintro _ ⟨⟩
    decide
  have inert : ∀ c ∈ element.text.flatMap entity, decide (c ≠ '<') = true := by
    intro c hc
    have := (escapes_flatMap_entity element.text).inert c hc
    simp at this ⊢
    exact this.1
  rw [read?, render, List.append_assoc, List.append_assoc, readTag?_openingTag]
  simp only [Option.bind_eq_bind, Option.bind_some]
  rw [takeWhile_run inert closing, dropWhile_run inert closing, dropPrefix?_append,
    unescape_flatMap_entity]
  rfl

theorem length_render_pos (element : Element) : 0 < element.render.length := by
  simp [render]

theorem readAll?_renderAll (elements : List Element) :
    readAll? (renderAll elements) = some (elements.map visible) := by
  induction elements
  case nil => rw [renderAll, List.flatMap_nil, readAll?, if_pos rfl]; rfl
  case cons element elements hi =>
    have pos := element.length_render_pos
    have all : renderAll (element :: elements) = element.render ++ renderAll elements := rfl
    have ne : element.render ++ renderAll elements ≠ [] := by
      intro e
      rw [(List.append_eq_nil_iff.mp e).1] at pos
      exact absurd pos (Nat.lt_irrefl 0)
    have shorter : (renderAll elements).length < (element.render ++ renderAll elements).length := by
      rw [List.length_append]
      omega
    rw [all, readAll?, if_neg ne, read?_render]
    simp only [if_pos shorter, hi]
    rfl

end Element

-- The elements for a text and its outcome: an accepted text has one for each of its tokens, a
-- rejected one is shown as it is.
inductive Shows (text : List Char) : Highlight → List Element → Prop
  | accepted {tokens : List Token} {elements : List Element}
    (each : List.Forall₂ (fun token element => element.style = token.kind.style ∧
      token.display? text = some element.text) tokens elements) :
    Shows text (.accepted tokens) elements
  | rejected {raw : Span} {violation : Violation} :
    Shows text (.rejected raw violation) [⟨.plain, text⟩]

structure Renders (text : List Char) (highlight : Highlight) (elements : List Element) : Prop where
  shown : Shows text highlight elements
  html : highlight.html? text = some (Element.renderAll elements)
  escaped : ∀ element ∈ elements, ∃ content, Escapes content element.text ∧
    element.render = Element.openingTag element.style ++ content ++ "</span>".toList
  readable : Element.readAll? (Element.renderAll elements) = some (elements.map Element.visible)

section Highlighting

variable {settings : Settings} {text : List Char} {highlight : Highlight}

theorem highlight_cases (h : settings.highlight text = .ok highlight) :
    highlight = .accepted (tokenize text) ∨
      ∃ violation, highlight = .rejected ⟨0, byteLength text⟩ violation := by
  rw [Settings.highlight] at h
  cases hl : settings.checkLength text
  case error => rw [hl] at h; cases h
  case ok =>
    rw [hl] at h
    cases hv : validate settings.maxDepth text
    case ok =>
      simp only [hv] at h
      exact .inl (Except.ok.inj h).symm
    case error violation =>
      simp only [hv] at h
      exact .inr ⟨violation, (Except.ok.inj h).symm⟩

theorem exists_shows (h : settings.highlight text = .ok highlight) :
    ∃ elements, Shows text highlight elements := by
  obtain rfl | ⟨violation, rfl⟩ := highlight_cases h
  case inl =>
    refine ⟨(lexemes none text).map Lexeme.element, .accepted ?_⟩
    rw [List.forall₂_map_right_iff]
    refine (Token.forall₂_display_tokenize text).imp fun token part shown => ?_
    exact ⟨congrArg TokenKind.style shown.1.symm, shown.2⟩
  case inr => exact ⟨_, .rejected⟩

theorem elements?_of_shows {elements : List Element} (h : settings.highlight text = .ok highlight)
    (hs : Shows text highlight elements) : highlight.elements? text = some elements := by
  cases hs
  case accepted tokens each =>
    have found : (Highlight.accepted tokens).elements? text = some (elements.map id) := by
      refine mapM_eq_some_of_forall₂ (each.imp fun token element shown => ?_)
      rw [shown.2, ← shown.1]
      rfl
    rwa [List.map_id] at found
  case rejected =>
    obtain e | ⟨_, e⟩ := highlight_cases h
    case inl => cases e
    case inr =>
      cases e
      have whole := sliceBytes?_append [] text []
      simp only [List.nil_append, List.append_nil, byteLength_nil, Nat.zero_add] at whole
      rw [Highlight.elements?, whole]
      rfl

theorem html?_of_shows {elements : List Element} (h : settings.highlight text = .ok highlight)
    (hs : Shows text highlight elements) :
    highlight.html? text = some (Element.renderAll elements) := by
  rw [Highlight.html?, elements?_of_shows h hs]
  rfl

-- A text that is highlighted has a page, and no other classes and texts give that page.
theorem html_faithful (h : settings.highlight text = .ok highlight) :
    ∃ elements, Renders text highlight elements ∧
      ∀ settings' text' highlight', Settings.highlight settings' text' = .ok highlight' →
        highlight'.html? text' = highlight.html? text →
        ∀ elements', Shows text' highlight' elements' →
          elements'.map Element.visible = elements.map Element.visible := by
  have ⟨elements, shows⟩ := exists_shows h
  have html := html?_of_shows h shows
  have readable := Element.readAll?_renderAll elements
  refine ⟨elements, ⟨shows, html, ?_, readable⟩, ?_⟩
  · exact fun element _ => ⟨_, escapes_flatMap_entity element.text, rfl⟩
  · intro settings' text' highlight' h' same elements' shows'
    rw [html, html?_of_shows h' shows', Option.some.injEq] at same
    rw [← same, Element.readAll?_renderAll, Option.some.injEq] at readable
    exact readable

end Highlighting

-- A text that looks like markup.
theorem html_faithful_of_tags :
    ∃ highlight, Settings.highlight {} "'<b>' or \"&lt;\"".toList = .ok highlight ∧
    ∃ elements, Renders "'<b>' or \"&lt;\"".toList highlight elements ∧
      ∀ settings' text' highlight', Settings.highlight settings' text' = .ok highlight' →
        highlight'.html? text' = highlight.html? "'<b>' or \"&lt;\"".toList →
        ∀ elements', Shows text' highlight' elements' →
          elements'.map Element.visible = elements.map Element.visible :=
  ⟨_, by cbv, html_faithful (show Settings.highlight {} _ = .ok _ by cbv)⟩

end BoolSearch
