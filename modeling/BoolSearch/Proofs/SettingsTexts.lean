import BoolSearch.Proofs.Skipping
import BoolSearch.Settings

namespace BoolSearch

namespace Json

-- The members of an object up to and past its brace: their names, and the text from each value on.
inductive MembersOf : Bool → List Char → List (List Char × List Char) → List Char → Prop
  | close {isFirst : Bool} {text rest : List Char}
    (h : nextName true isFirst text = .ok (.close ('}' :: rest))) : MembersOf isFirst text [] rest
  | name {isFirst : Bool} {text name behind value after rest : List Char}
    {members : List (List Char × List Char)}
    (h : nextName true isFirst text = .ok (.name name behind)) (colon : colon behind = .ok value)
    (passed : skip value = .ok after) (tail : MembersOf false after members rest) :
    MembersOf isFirst text ((name, value) :: members) rest

-- The items of an array up to and past its bracket: the text from each of them on.
inductive ItemsOf : Bool → List Char → List (List Char) → List Char → Prop
  | close {isFirst : Bool} {text rest : List Char}
    (h : nextItem isFirst text = .ok (.close (']' :: rest))) : ItemsOf isFirst text [] rest
  | item {isFirst : Bool} {text value after rest : List Char} {items : List (List Char)}
    (h : nextItem isFirst text = .ok (.item value)) (passed : skip value = .ok after)
    (tail : ItemsOf false after items rest) : ItemsOf isFirst text (value :: items) rest

variable {α σ : Type} {isFirst : Bool} {text rest : List Char}

def valuesAt (word : String) (members : List (List Char × List Char)) : List (List Char) :=
  (members.filter (·.1 == word.toList)).map Prod.snd

section Values

variable {word : String} {name value : List Char} {members : List (List Char × List Char)}

theorem valuesAt_cons_of_eq (h : name = word.toList) :
    valuesAt word ((name, value) :: members) = value :: valuesAt word members := by
  simp [valuesAt, h]

theorem valuesAt_cons_of_ne (h : name ≠ word.toList) :
    valuesAt word ((name, value) :: members) = valuesAt word members := by
  simp [valuesAt, h]

end Values

namespace Decoder

def Reads (decoder : Decoder α) (text : List Char) (a : α) : Prop :=
  ∃ rest, decoder.read text = .ok (a, rest)

-- What becomes of a place into which these values are read. There is room for one.
inductive Fills (decoder : Decoder α) : Option α → List (List Char) → Option α → Prop
  | keep (place : Option α) : Fills decoder place [] place
  | read {value : List Char} {a : α} (h : decoder.Reads value a) :
    Fills decoder none [value] (some a)

-- Does the field read nothing but what can be passed over, and to the same end?
def Field.Covered (field : Field σ) : Prop :=
  ∀ draft text draft' rest, field.read draft text = .ok (draft', rest) → skip text = .ok rest

theorem Covered.field {decoder : Decoder α} (h : Covered decoder) (name : String)
    (get : σ → Option α) (set : σ → α → σ) : (Field.of name get set decoder).Covered := by
  intro draft text draft' rest read
  have ⟨a, read, _⟩ := Scanned.map_eq_ok_iff.mp read
  exact h text a rest read

inductive Field.Takes (fields : List (Field σ)) (draft : σ) :
    List Char × List Char → σ → Prop
  | other {name value : List Char} (h : Field.find? fields name = none) :
    Takes fields draft (name, value) draft
  | field {field : Field σ} {next : σ} {name value after : List Char}
    (h : Field.find? fields name = some field) (unset : field.isSet draft = false)
    (read : field.read draft value = .ok (next, after)) : Takes fields draft (name, value) next

inductive Field.Collects (fields : List (Field σ)) :
    σ → List (List Char × List Char) → σ → Prop
  | nil {draft : σ} : Collects fields draft [] draft
  | cons {draft next draft' : σ} {member : List Char × List Char}
    {members : List (List Char × List Char)} (head : Takes fields draft member next)
    (tail : Collects fields next members draft') :
    Collects fields draft (member :: members) draft'

inductive Field.Lists : List (Field σ) → σ → List (List Char) → σ → Prop
  | nil {fields : List (Field σ)} {draft : σ} : Lists fields draft [] draft
  | cons {field : Field σ} {fields : List (Field σ)} {draft next draft' : σ}
    {value after : List Char} {items : List (List Char)}
    (read : field.read draft value = .ok (next, after)) (tail : Lists fields next items draft') :
    Lists (field :: fields) draft (value :: items) draft'

inductive Field.Makes (fields : List (Field σ)) (draft : σ) (text : List Char) (draft' : σ) : Prop
  | object {inner rest : List Char} {members : List (List Char × List Char)}
    (opens : skipSpace text = '{' :: inner) (inside : MembersOf true inner members rest)
    (ends : skipSpace rest = []) (collects : Collects fields draft members draft')
  | array {inner rest : List Char} {items : List (List Char)}
    (opens : skipSpace text = '[' :: inner) (inside : ItemsOf true inner items rest)
    (ends : skipSpace rest = []) (lists : Lists fields draft items draft')

section Reading

variable {fields : List (Field σ)} {draft next draft' : σ}

theorem readMember_eq_ok_iff (hf : ∀ field ∈ fields, field.Covered) {name : List Char} :
    readMember fields draft name text = .ok (next, rest) ↔
      ∃ value, colon text = .ok value ∧ skip value = .ok rest ∧
        Field.Takes fields draft (name, value) next := by
  unfold readMember
  constructor
  case mp =>
    intro h
    split at h
    case h_1 unknown =>
      have ⟨passed, e⟩ := Scanned.of_map_eq_ok h
      subst e
      have ⟨value, behind, passed⟩ := Scanned.exists_of_bind_eq_ok passed
      exact ⟨value, behind, passed, .other unknown⟩
    case h_2 field found =>
      split at h
      case isTrue => cases h
      case isFalse unset =>
        have ⟨value, behind, read⟩ := Scanned.exists_of_bind_eq_ok h
        have covered := hf field (List.mem_of_find?_eq_some found)
        exact ⟨value, behind, covered _ _ _ _ read, .field found (by simpa using unset) read⟩
  case mpr =>
    rintro ⟨value, behind, passed, takes⟩
    cases takes
    case other unknown => simp [unknown, behind, passed, Except.bind, Except.map]
    case field unset found read =>
      have covered := hf _ (List.mem_of_find?_eq_some found)
      obtain rfl := Except.ok.inj (passed.symm.trans (covered _ _ _ _ read))
      simp [found, unset, behind, read, Except.bind]

theorem length_after_member {name behind value after : List Char}
    (h : nextName true isFirst text = .ok (.name name behind)) (colon : colon behind = .ok value)
    (passed : skip value = .ok after) : after.length < text.length := by
  have := length_nextName h
  have := length_closing colon
  have := length_skip passed
  omega

-- By induction on the text: each member of an object moves the draft on as it is read.
theorem exists_membersOf_of_readMembers (hf : ∀ field ∈ fields, field.Covered)
    (h : readMembers fields isFirst draft text = .ok (draft', rest)) : ∃ members after,
      MembersOf isFirst text members after ∧ rest = '}' :: after ∧
        Field.Collects fields draft members draft' := by
  fun_induction readMembers fields isFirst draft text
  case case1 => cases h
  case case2 e =>
    obtain ⟨after, _, rfl⟩ := nextName_eq_close_iff.mp e
    cases h
    exact ⟨[], after, .close e, rfl, .nil⟩
  case case3 e hi =>
    obtain ⟨next, afterMember, read, h⟩ := Scanned.eq_ok_of_andThen h
    split at h
    case isFalse => cases h
    case isTrue shorter =>
      have ⟨value, colon, passed, takes⟩ := (readMember_eq_ok_iff hf).mp read
      have ⟨members, after, inside, end_eq, collects⟩ := hi next afterMember shorter h
      exact ⟨_, after, .name e colon passed inside, end_eq, .cons takes collects⟩

theorem readMembers_of_membersOf (hf : ∀ field ∈ fields, field.Covered)
    {members : List (List Char × List Char)} (h : MembersOf isFirst text members rest)
    (hc : Field.Collects fields draft members draft') :
    readMembers fields isFirst draft text = .ok (draft', '}' :: rest) := by
  induction h generalizing draft
  case close e =>
    cases hc
    rw [readMembers, e]
  case name e colon passed _ hi =>
    cases hc
    case cons takes collects =>
      have read := (readMember_eq_ok_iff hf).mpr ⟨_, colon, passed, takes⟩
      rw [readMembers, e]
      simp only [read, Scanned.andThen, if_pos (length_after_member e colon passed), hi collects]

-- Where the last field has been read, nothing but the bracket may follow.
theorem exists_itemsOf_of_readItems (hf : ∀ field ∈ fields, field.Covered) {after : List Char}
    (h : readItems fields isFirst draft text = .ok (draft', rest))
    (closed : closing ']' rest = .ok after) :
    ∃ items, ItemsOf isFirst text items after ∧ Field.Lists fields draft items draft' := by
  induction fields generalizing isFirst draft text
  case nil =>
    cases h
    refine ⟨[], .close (nextItem_eq_close_iff.mpr ⟨after, ?_, rfl⟩), .nil⟩
    exact closing_eq_ok_iff.mp closed
  case cons field fields hi =>
    have ⟨first, others⟩ := List.forall_mem_cons.mp hf
    rw [readItems] at h
    split at h
    case h_1 => cases h
    case h_2 e =>
      obtain ⟨behind, _, rfl⟩ := nextItem_eq_close_iff.mp e
      cases h
      cases closed
      exact ⟨[], .close e, .nil⟩
    case h_3 value e =>
      have ⟨next, afterItem, read, h⟩ := Scanned.eq_ok_of_andThen h
      have ⟨items, inside, lists⟩ := hi others h
      exact ⟨_, .item e (first _ _ _ _ read) inside, .cons read lists⟩

theorem readItems_of_itemsOf (hf : ∀ field ∈ fields, field.Covered) {items : List (List Char)}
    (h : ItemsOf isFirst text items rest) (hl : Field.Lists fields draft items draft') :
    ∃ rest', readItems fields isFirst draft text = .ok (draft', rest') ∧
      closing ']' rest' = .ok rest := by
  induction h generalizing fields draft
  case close text rest e =>
    cases hl
    cases fields
    case nil =>
      obtain ⟨after, space, same⟩ := nextItem_eq_close_iff.mp e
      cases same
      exact ⟨text, rfl, closing_eq_ok_iff.mpr space⟩
    case cons => exact ⟨_, by rw [readItems, e], rfl⟩
  case item e passed _ hi =>
    cases hl
    case cons read lists =>
      have ⟨first, others⟩ := List.forall_mem_cons.mp hf
      obtain rfl := Except.ok.inj (passed.symm.trans (first _ _ _ _ read))
      have ⟨rest', tail, closed⟩ := hi others lists
      refine ⟨rest', ?_, closed⟩
      rw [readItems, e]
      simp only [read, Scanned.andThen, tail]

theorem complete_eq_ok_iff {scanned : Scanned α} {a : α} :
    complete scanned = .ok a ↔ ∃ rest, scanned = .ok (a, rest) ∧ skipSpace rest = [] := by
  unfold complete
  cases scanned
  case error => simp
  case ok result =>
    obtain ⟨a', rest⟩ := result
    simp only [Except.ok.injEq, Prod.mk.injEq]
    constructor
    case mp =>
      intro h
      split at h
      case isTrue empty =>
        cases h
        exact ⟨rest, ⟨rfl, rfl⟩, List.isEmpty_iff.mp empty⟩
      case isFalse => cases h
    case mpr =>
      rintro ⟨_, ⟨rfl, rfl⟩, ends⟩
      rw [ends]
      rfl

theorem finish_eq_ok_iff {finished : σ → Option α} {bracket : Char} {a : α} {after : List Char} :
    finish finished bracket draft rest = .ok (a, after) ↔
      finished draft = some a ∧ closing bracket rest = .ok after := by
  unfold finish
  cases finished draft
  case none => simp
  case some b => cases closing bracket rest <;> simp [Except.map]

theorem readScalar_none (text : List Char) (a : α) (rest : List Char) :
    readScalar (fun _ => none) text ≠ .ok (a, rest) := by
  unfold readScalar
  split
  case h_1 => rintro ⟨⟩
  case h_2 =>
    split
    case isTrue => rintro ⟨⟩
    case isFalse =>
      intro h
      obtain ⟨_, _, _, h⟩ := Scanned.eq_ok_of_andThen h
      cases h

-- A record is read as the draft that its text makes is finished.
theorem ofText_record_eq_ok_iff (hf : ∀ field ∈ fields, field.Covered) {finished : σ → Option α}
    {a : α} : (record fields draft finished).ofText text = .ok a ↔
      ∃ draft', Field.Makes fields draft text draft' ∧ finished draft' = some a := by
  rw [ofText, complete_eq_ok_iff]
  constructor
  case mp =>
    rintro ⟨rest, read, ends⟩
    simp only [record] at read
    split at read
    case h_1 => cases read
    case h_2 c inner opens =>
      split_ifs at read with brace bracket
      · subst brace
        obtain ⟨draft', afterMembers, read, finish⟩ := Scanned.eq_ok_of_andThen read
        obtain ⟨finished, closed⟩ := finish_eq_ok_iff.mp finish
        obtain ⟨members, after, inside, rfl, collects⟩ := exists_membersOf_of_readMembers hf read
        cases closed
        exact ⟨draft', .object opens inside ends collects, finished⟩
      · subst bracket
        obtain ⟨draft', afterItems, read, finish⟩ := Scanned.eq_ok_of_andThen read
        obtain ⟨finished, closed⟩ := finish_eq_ok_iff.mp finish
        obtain ⟨items, inside, lists⟩ := exists_itemsOf_of_readItems hf read closed
        exact ⟨draft', .array opens inside ends lists, finished⟩
      · exact absurd read (readScalar_none _ _ _)
  case mpr =>
    rintro ⟨draft', makes, finished⟩
    cases makes
    case object rest members opens inside ends collects =>
      have read := readMembers_of_membersOf hf inside collects
      have closed : closing '}' ('}' :: rest) = .ok rest := rfl
      refine ⟨rest, ?_, ends⟩
      simp [record, opens, read, Scanned.andThen, finish_eq_ok_iff, finished, closed]
    case array rest items opens inside ends lists =>
      obtain ⟨rest', read, closed⟩ := readItems_of_itemsOf hf inside lists
      refine ⟨rest, ?_, ends⟩
      simp [record, opens, read, Scanned.andThen, finish_eq_ok_iff, finished, closed]

end Reading

section Places

variable {fields : List (Field σ)} {draft next draft' : σ} {decoder : Decoder α}
  {place place' : Option α} {value : List Char} {values : List (List Char)}

theorem fills_nil_iff : Fills decoder place [] place' ↔ place' = place := by
  constructor
  case mp =>
    rintro ⟨⟩
    rfl
  case mpr =>
    rintro rfl
    exact .keep _

theorem fills_cons_iff : Fills decoder place (value :: values) place' ↔
    place = none ∧ ∃ a, decoder.Reads value a ∧ Fills decoder (some a) values place' := by
  constructor
  case mp =>
    rintro ⟨⟩
    case read a h => exact ⟨rfl, a, h, .keep _⟩
  case mpr =>
    rintro ⟨rfl, a, h, ⟨⟩⟩
    exact .read h

theorem collects_nil_iff : Field.Collects fields draft [] draft' ↔ draft' = draft := by
  constructor
  case mp =>
    rintro ⟨⟩
    rfl
  case mpr =>
    rintro rfl
    exact .nil

theorem collects_cons_iff {member : List Char × List Char}
    {members : List (List Char × List Char)} :
    Field.Collects fields draft (member :: members) draft' ↔
      ∃ next, Field.Takes fields draft member next ∧ Field.Collects fields next members draft' := by
  constructor
  case mp =>
    rintro ⟨⟩
    case cons head tail => exact ⟨_, head, tail⟩
  case mpr =>
    rintro ⟨next, head, tail⟩
    exact .cons head tail

theorem takes_iff_of_none {name : List Char} (h : Field.find? fields name = none) :
    Field.Takes fields draft (name, value) next ↔ next = draft := by
  constructor
  case mp =>
    rintro ⟨⟩
    case other => rfl
    case field found _ => simp [h] at found
  case mpr =>
    rintro rfl
    exact .other h

theorem takes_iff_of_some {name : List Char} {word : String} {get : σ → Option α}
    {set : σ → α → σ} (h : Field.find? fields name = some (.of word get set decoder)) :
    Field.Takes fields draft (name, value) next ↔
      get draft = none ∧ ∃ a, decoder.Reads value a ∧ next = set draft a := by
  constructor
  case mp =>
    rintro ⟨⟩
    case other unknown => simp [h] at unknown
    case field unset found read =>
      obtain rfl := Option.some.inj (h.symm.trans found)
      have ⟨a, read, e⟩ := Scanned.map_eq_ok_iff.mp read
      exact ⟨by simpa [Field.of] using unset, a, ⟨_, read⟩, e.symm⟩
  case mpr =>
    rintro ⟨unset, a, ⟨rest, read⟩, rfl⟩
    exact .field h (by simp [Field.of, unset]) (Scanned.map_of_eq_ok read _)

theorem exists_takes_iff {name : List Char} {word : String} {get : σ → Option α} {p : σ → Prop}
    {set : σ → α → σ} (h : Field.find? fields name = some (.of word get set decoder)) :
    (∃ next, Field.Takes fields draft (name, value) next ∧ p next) ↔
      get draft = none ∧ ∃ a, decoder.Reads value a ∧ p (set draft a) := by
  simp only [takes_iff_of_some h]
  constructor
  case mp =>
    rintro ⟨_, ⟨unset, a, read, rfl⟩, hp⟩
    exact ⟨unset, a, read, hp⟩
  case mpr =>
    rintro ⟨unset, a, read, hp⟩
    exact ⟨_, ⟨unset, a, read, rfl⟩, hp⟩

theorem lists_nil_iff : Field.Lists fields draft [] draft' ↔ draft' = draft := by
  constructor
  case mp =>
    rintro ⟨⟩
    rfl
  case mpr =>
    rintro rfl
    exact .nil

theorem lists_cons_iff {word : String} {get : σ → Option α} {set : σ → α → σ} :
    Field.Lists (.of word get set decoder :: fields) draft (value :: values) draft' ↔
      ∃ a, decoder.Reads value a ∧ Field.Lists fields (set draft a) values draft' := by
  constructor
  case mp =>
    rintro ⟨⟩
    case cons read tail =>
      obtain ⟨a, found, rfl⟩ := Scanned.map_eq_ok_iff.mp read
      exact ⟨a, ⟨_, found⟩, tail⟩
  case mpr =>
    rintro ⟨a, ⟨rest, read⟩, tail⟩
    exact .cons (Scanned.map_of_eq_ok read _) tail

theorem not_lists_cons : ¬Field.Lists ([] : List (Field σ)) draft (value :: values) draft' :=
  nofun

end Places

end Decoder

end Json

open Json.Decoder (Field Fills Reads)

namespace Settings

def fields : List (Json.Decoder.Field Draft) :=
  [.of "max_input_len" Draft.maxInputLength ({ · with maxInputLength := some · }) .nat,
   .of "max_depth" Draft.maxDepth ({ · with maxDepth := some · }) .nat,
   .of "locale" Draft.locale ({ · with locale := some · }) Locale.decoder]

theorem covered_fields : ∀ field ∈ fields, field.Covered := by
  have locale : Locale.decoder.Covered := by
    refine Json.Decoder.covered_oneOf fun variant hm => ?_
    obtain ⟨locale, _, rfl⟩ := List.mem_map.mp hm
    exact Json.Decoder.shallow_unit locale
  simp only [fields, List.forall_mem_cons]
  exact ⟨Json.Decoder.shallow_nat.covered.field _ _ _, Json.Decoder.shallow_nat.covered.field _ _ _,
    locale.field _ _ _, nofun⟩

-- Does the text give these settings and no others?
inductive Draft.GivenBy (draft : Draft) (text : List Char) : Prop
  | object {inner rest : List Char} {members : List (List Char × List Char)}
    (opens : Json.skipSpace text = '{' :: inner) (inside : Json.MembersOf true inner members rest)
    (ends : Json.skipSpace rest = [])
    (length : Fills .nat none (Json.valuesAt "max_input_len" members) draft.maxInputLength)
    (depth : Fills .nat none (Json.valuesAt "max_depth" members) draft.maxDepth)
    (locale : Fills Locale.decoder none (Json.valuesAt "locale" members) draft.locale)
  | array {inner rest : List Char} {items : List (List Char)}
    (opens : Json.skipSpace text = '[' :: inner) (inside : Json.ItemsOf true inner items rest)
    (ends : Json.skipSpace rest = []) (few : items.length ≤ 3)
    (length : Fills .nat none items[0]?.toList draft.maxInputLength)
    (depth : Fills .nat none items[1]?.toList draft.maxDepth)
    (locale : Fills Locale.decoder none items[2]?.toList draft.locale)

section

open Json.Decoder

variable {draft draft' : Draft}

-- Each field looks at the members of its name only.
theorem collects_iff {members : List (List Char × List Char)} :
    Field.Collects fields draft members draft' ↔
      Fills .nat draft.maxInputLength (Json.valuesAt "max_input_len" members)
        draft'.maxInputLength ∧
      Fills .nat draft.maxDepth (Json.valuesAt "max_depth" members) draft'.maxDepth ∧
      Fills Locale.decoder draft.locale (Json.valuesAt "locale" members) draft'.locale := by
  induction members generalizing draft
  case nil =>
    obtain ⟨length, depth, locale⟩ := draft
    obtain ⟨length', depth', locale'⟩ := draft'
    simp [collects_nil_iff, Json.valuesAt, fills_nil_iff]
  case cons member members hi =>
    obtain ⟨name, value⟩ := member
    simp only [collects_cons_iff, hi]
    by_cases length : name = "max_input_len".toList
    case pos =>
      subst length
      have found : Field.find? fields "max_input_len".toList = some (.of _ _ _ _) := rfl
      rw [Json.valuesAt_cons_of_eq rfl, Json.valuesAt_cons_of_ne (by decide),
        Json.valuesAt_cons_of_ne (by decide)]
      simp only [exists_takes_iff found, fills_cons_iff]
      grind
    by_cases depth : name = "max_depth".toList
    case pos =>
      subst depth
      have found : Field.find? fields "max_depth".toList = some (.of _ _ _ _) := rfl
      rw [Json.valuesAt_cons_of_ne (by decide), Json.valuesAt_cons_of_eq rfl,
        Json.valuesAt_cons_of_ne (by decide)]
      simp only [exists_takes_iff found, fills_cons_iff]
      grind
    by_cases locale : name = "locale".toList
    case pos =>
      subst locale
      have found : Field.find? fields "locale".toList = some (.of _ _ _ _) := rfl
      rw [Json.valuesAt_cons_of_ne (by decide), Json.valuesAt_cons_of_ne (by decide),
        Json.valuesAt_cons_of_eq rfl]
      simp only [exists_takes_iff found, fills_cons_iff]
      grind
    case neg =>
      have unknown : Field.find? fields name = none := by
        simp only [Field.find?, List.find?_eq_none, fields, List.forall_mem_cons, Field.of,
          beq_iff_eq]
        exact ⟨Ne.symm length, Ne.symm depth, Ne.symm locale, nofun⟩
      rw [Json.valuesAt_cons_of_ne length, Json.valuesAt_cons_of_ne depth,
        Json.valuesAt_cons_of_ne locale]
      simp only [takes_iff_of_none unknown, exists_eq_left]

theorem lists_iff {items : List (List Char)} :
    Field.Lists fields {} items draft ↔ items.length ≤ 3 ∧
      Fills .nat none items[0]?.toList draft.maxInputLength ∧
      Fills .nat none items[1]?.toList draft.maxDepth ∧
      Fills Locale.decoder none items[2]?.toList draft.locale := by
  obtain ⟨length, depth, locale⟩ := draft
  match items with
  | [] => simp [lists_nil_iff, fills_nil_iff]
  | [_] | [_, _] | [_, _, _] =>
    simp only [fields, lists_cons_iff, lists_nil_iff, fills_nil_iff, fills_cons_iff,
      List.getElem?_cons_zero, List.getElem?_cons_succ, List.getElem?_nil, Option.toList_some,
      Option.toList_none, Draft.mk.injEq, true_and]
    grind
  | _ :: _ :: _ :: _ :: _ => simp [fields, lists_cons_iff, not_lists_cons]

theorem makes_iff {text : List Char} : Field.Makes fields {} text draft ↔ draft.GivenBy text := by
  constructor
  case mp =>
    rintro ⟨⟩
    case object opens inside ends collects =>
      have ⟨length, depth, locale⟩ := collects_iff.mp collects
      exact .object opens inside ends length depth locale
    case array opens inside ends lists =>
      have ⟨few, length, depth, locale⟩ := lists_iff.mp lists
      exact .array opens inside ends few length depth locale
  case mpr =>
    rintro ⟨⟩
    case object opens inside ends length depth locale =>
      exact .object opens inside ends (collects_iff.mpr ⟨length, depth, locale⟩)
    case array opens inside ends few length depth locale =>
      exact .array opens inside ends (lists_iff.mpr ⟨few, length, depth, locale⟩)

theorem givenBy_iff {text : List Char} :
    draft.GivenBy text ↔ (Json.Decoder.record fields {} some).ofText text = .ok draft := by
  simp [ofText_record_eq_ok_iff covered_fields, makes_iff]

theorem Draft.GivenBy.unique {text : List Char} (h : draft.GivenBy text)
    (h' : draft'.GivenBy text) : draft = draft' :=
  Except.ok.inj ((givenBy_iff.mp h).symm.trans (givenBy_iff.mp h'))

-- The settings that are read from a text are those that it gives, and the default ones.
theorem ofText_eq_ok_iff {text : List Char} {settings : Settings} :
    ofText text = .ok settings ↔
      ∃ draft : Draft, draft.GivenBy text ∧ draft.complete = settings := by
  have read : decoder.ofText text = .ok settings ↔ _ := ofText_record_eq_ok_iff covered_fields
  simp only [makes_iff, Option.some.injEq] at read
  rw [← read, ofText]
  cases decoder.ofText text <;> simp [Except.mapError]

end

end Settings

end BoolSearch
