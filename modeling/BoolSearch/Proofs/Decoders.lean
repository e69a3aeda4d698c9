import BoolSearch.Json.Decoder
import BoolSearch.Proofs.JsonTexts

namespace BoolSearch.Json

variable {α β σ : Type} {a : α} {value : Json} {rest : List Char}

theorem maxRoom_eq : maxRoom = maxRoom - 1 + 1 := rfl

theorem Fits.items {items : List Json} (h : Fits maxRoom (.arr items)) :
    ∀ item ∈ items, Fits (maxRoom - 1) item := by
  rw [maxRoom_eq] at h
  cases h
  case arr inside => exact inside

theorem Fits.members {members : List (List Char × Json)} (h : Fits maxRoom (.obj members)) :
    ∀ member ∈ members, Fits (maxRoom - 1) member.2 := by
  rw [maxRoom_eq] at h
  cases h
  case obj inside => exact inside

theorem Fits.within (h : Fits (maxRoom - 1) value) : Fits maxRoom value :=
  h.mono (Nat.sub_le _ _)

namespace Decoder

variable {decoder : Decoder α}

-- Does the decoder read the text of each value as it takes the value?
def Agrees (decoder : Decoder α) : Prop :=
  ∀ value a rest, Fits maxRoom value → Delimited rest → decoder.ofJson false value = some a →
    decoder.read (value.print ++ rest) = .ok (a, rest)

-- Does the decoder take this value for `a`, whatever an empty object stands for?
def Takes (decoder : Decoder α) (value : Json) (a : α) : Prop :=
  ∀ emptyIs, decoder.ofJson emptyIs value = some a

theorem Agrees.ofText_print (h : Agrees decoder) (fits : Fits maxRoom value)
    (takes : decoder.Takes value a) : decoder.ofText value.print = .ok a := by
  have read := h value a [] fits delimited_nil (takes false)
  rw [List.append_nil] at read
  rw [ofText, read]
  rfl

structure Scalar (pick : Json → Option α) : Prop where
  arr : ∀ items, pick (.arr items) = none
  obj : ∀ members, pick (.obj members) = none

theorem readScalar_print {pick : Json → Option α} (hp : Scalar pick) (fits : Fits maxRoom value)
    (hr : Delimited rest) (h : pick value = some a) :
    readScalar pick (value.print ++ rest) = .ok (a, rest) := by
  have fits : Fits 0 value := by
    cases fits
    case null      => exact .null
    case bool b    => exact .bool b
    case nat small => exact .nat small
    case str text  => exact .str text
    case arr       => simp [hp.arr] at h
    case obj       => simp [hp.obj] at h
  have scalar : Json.scalar true (value.print ++ rest) = .ok (value, rest) := fits.scalar_print hr
  have ⟨c, text, e, space, bracket, brace⟩ := fits.exists_scalar_print
  rw [e] at scalar ⊢
  rw [readScalar, List.cons_append, skipSpace_cons space]
  simp only [bracket, brace, or_self, if_false]
  rw [← List.cons_append, scalar, Scanned.andThen, h]
  rfl

theorem agrees_scalar {pick : Json → Option α} (hp : Scalar pick) : Agrees (scalar pick) :=
  fun _ _ _ => readScalar_print hp

theorem agrees_nat : Agrees nat :=
  agrees_scalar ⟨fun _ => rfl, fun _ => rfl⟩

theorem agrees_string : Agrees string :=
  agrees_scalar ⟨fun _ => rfl, fun _ => rfl⟩

theorem agrees_unit (a : α) : Agrees (unit a) := by
  intro value b rest fits hr h
  refine readScalar_print ⟨fun _ => rfl, fun _ => rfl⟩ fits hr ?_
  cases value <;> first | exact h | cases h | skip
  case obj members => cases members <;> cases h

theorem Agrees.map (h : Agrees decoder) (f : α → β) : Agrees (decoder.map f) := by
  intro value b rest fits hr hb
  have ⟨a, ha, e⟩ := Option.map_eq_some_iff.mp hb
  simp [Decoder.map, h value a rest fits hr ha, Scanned.map, Scanned.andThen, e]

theorem mem_of_find?_variant {variants : List (Variant α)} {variant : Variant α}
    {name : List Char} (h : Variant.find? variants name = some variant) : variant ∈ variants :=
  List.mem_of_find?_eq_some h

theorem agrees_oneOf {variants : List (Variant α)}
    (hv : ∀ variant ∈ variants, Agrees variant.content) : Agrees (oneOf variants) := by
  intro value a rest fits hr h
  cases value with
  | str name =>
    have alone : (Variant.find? variants name).bind (·.alone) = some a := h
    rw [print, printString_append]
    simp [oneOf, isSpace, stringRest_flatMap_escape, Scanned.andThen, alone, ofOption]
  | obj members =>
    rcases members with _ | ⟨⟨name, value⟩, _ | ⟨second, members⟩⟩
    case nil       => cases h
    case cons.cons => cases h
    case cons.nil  =>
      obtain ⟨variant, hf, hc⟩ := Option.bind_eq_some_iff.mp h
      have inside := (fits.members (name, value) (by simp)).within
      have content := hv variant (mem_of_find?_variant hf) value a ('}' :: rest) inside
        (delimited_cons (by simp)) hc
      have e : print (.obj [(name, value)]) ++ rest =
          '{' :: (printString name ++ ':' :: (value.print ++ '}' :: rest)) := by
        simp [print, printMembers, printMoreMembers]
      rw [e]
      simp [oneOf, isSpace, readVariant, nameAt_printString, Scanned.andThen, hf, colon_cons,
        Except.bind, content, closing_cons, Except.map]
  | null     => cases h
  | bool _   => cases h
  | nat _    => cases h
  | real _   => cases h
  | arr _    => cases h

def Field.Agrees (field : Field σ) : Prop :=
  ∀ value draft draft' rest, Fits maxRoom value → Delimited rest →
    field.ofJson false draft value = some draft' →
    field.read draft (value.print ++ rest) = .ok (draft', rest)

theorem Agrees.field (h : Agrees decoder) (name : String) (get : σ → Option α) (set : σ → α → σ) :
    (Field.of name get set decoder).Agrees := by
  intro value draft draft' rest fits hr hd
  have ⟨a, ha, e⟩ := Option.map_eq_some_iff.mp hd
  simp [Field.of, h value a rest fits hr ha, Scanned.map, Scanned.andThen, e]

section Records

variable {fields : List (Field σ)} {draft draft' : σ} {name : List Char}
  {members : List (List Char × Json)} {values : List Json} {isFirst : Bool}

theorem readMember_print (hf : ∀ field ∈ fields, field.Agrees) (fits : Fits maxRoom value)
    (hr : Delimited rest)
    (h : ofMembers fields false draft ((name, value) :: members) = some draft') : ∃ next,
    readMember fields draft name (':' :: (value.print ++ rest)) = .ok (next, rest) ∧
      ofMembers fields false next members = some draft' := by
  rw [ofMembers] at h
  rw [readMember]
  split at h
  case h_1 =>
    refine ⟨draft, ?_, h⟩
    simp [colon_cons, Except.bind, fits.skip_print hr, Except.map]
  case h_2 field hn =>
    split at h
    case isTrue => cases h
    case isFalse unset =>
      obtain ⟨next, hnext, h⟩ := Option.bind_eq_some_iff.mp h
      have agrees := hf field (List.mem_of_find?_eq_some hn)
      refine ⟨next, ?_, h⟩
      simp [unset, colon_cons, Except.bind, agrees value draft next rest fits hr hnext]

-- By induction on the members: each of them moves the draft on as it is read.
theorem readMembers_print (hf : ∀ field ∈ fields, field.Agrees)
    (fits : ∀ member ∈ members, Fits maxRoom member.2)
    (h : ofMembers fields false draft members = some draft') (isFirst : Bool) (rest : List Char) :
    readMembers fields isFirst draft (printMembersFrom isFirst members ++ '}' :: rest) =
      .ok (draft', '}' :: rest) := by
  induction members generalizing draft isFirst
  case nil =>
    cases h
    rw [readMembers, nextName_nil]
  case cons member members hi =>
    obtain ⟨name, value⟩ := member
    have delimited : Delimited (printMembersFrom false members ++ '}' :: rest) := delimited_members
    have ⟨next, read, h⟩ := readMember_print hf (fits (name, value) (by simp)) delimited h
    have tail := hi (fun member hm => fits member (List.mem_cons_of_mem _ hm)) h
    rw [readMembers, nextName_cons]
    simp only [read, Scanned.andThen, tail]
    rw [if_pos length_members_lt]

@[simp] theorem ofItems_nil {emptyIs : Bool} : ofItems emptyIs draft fields [] = some draft := by
  cases fields <;> rfl

-- The items of an array are taken for the fields in their order. Behind the last field there is
-- nothing more to be read.
theorem readItems_print (hf : ∀ field ∈ fields, field.Agrees)
    (fits : ∀ value ∈ values, Fits maxRoom value)
    (h : ofItems false draft fields values = some draft') (isFirst : Bool) (rest : List Char) :
    ∃ rest', readItems fields isFirst draft (printItemsFrom isFirst values ++ ']' :: rest) =
      .ok (draft', rest') ∧ closing ']' rest' = .ok rest := by
  induction values generalizing draft fields isFirst
  case nil =>
    rw [ofItems_nil] at h
    cases h
    refine ⟨']' :: rest, ?_, closing_cons (by decide)⟩
    cases fields
    case nil  => cases isFirst <;> simp [readItems, printItemsFrom, printItems, printMoreItems]
    case cons => rw [readItems, nextItem_nil]
  case cons value values hi =>
    cases fields
    case nil => cases h
    case cons field fields =>
      obtain ⟨next, hn, h⟩ := Option.bind_eq_some_iff.mp h
      have value_fits := fits value (by simp)
      have delimited : Delimited (printItemsFrom false values ++ ']' :: rest) := delimited_items
      have head := hf field (by simp) value draft next _ value_fits delimited hn
      obtain ⟨rest', tail, closed⟩ := hi (fun field hm => hf field (List.mem_cons_of_mem _ hm))
        (fun value hm => fits value (List.mem_cons_of_mem _ hm)) h false
      refine ⟨rest', ?_, closed⟩
      rw [readItems, value_fits.nextItem_cons]
      simp only [head, Scanned.andThen, tail]

theorem agrees_record (hf : ∀ field ∈ fields, field.Agrees) (draft : σ) (finished : σ → Option α) :
    Agrees (record fields draft finished) := by
  intro value a rest fits hr h
  cases value with
  | obj members =>
    obtain ⟨draft', hd, hfin⟩ := Option.bind_eq_some_iff.mp h
    have read := readMembers_print hf
      (fun member hm => (fits.members member hm).within) hd true rest
    rw [print_obj_append]
    simp [record, isSpace, read, Scanned.andThen, finish, hfin, closing_cons, Except.map]
  | arr values =>
    obtain ⟨draft', hd, hfin⟩ := Option.bind_eq_some_iff.mp h
    obtain ⟨rest', read, closed⟩ := readItems_print hf
      (fun value hm => (fits.items value hm).within) hd true rest
    rw [print_arr_append]
    simp [record, isSpace, read, Scanned.andThen, finish, hfin, closed, Except.map]
  | null   => cases h
  | bool _ => cases h
  | nat _  => cases h
  | real _ => cases h
  | str _  => cases h

end Records

section Tagged

variable {tag name word : List Char} {pick : List Char → Option (Decoder α)}
  {choice : Decoder α} {found : Option (Decoder α)} {members : List (List Char × Json)}
  {isFirst : Bool}

-- A member that is not the tag is kept.
theorem readTagged_other (fits : Fits (maxRoom - 1) value) (other : name ≠ tag) :
    readTagged tag pick isFirst found
      (printMembersFrom isFirst ((name, value) :: members) ++ '}' :: rest) =
    (readTagged tag pick false found (printMembersFrom false members ++ '}' :: rest)).map
      fun (found, members) => (found, (name, value) :: members) := by
  have read : Json.value true (maxRoom - 1)
      (value.print ++ (printMembersFrom false members ++ '}' :: rest)) = _ :=
    fits.readsBack.reads _ delimited_members
  rw [readTagged, nextName_cons]
  simp only [if_neg other, colon_cons, Except.bind, read, Scanned.andThen]
  rw [if_pos length_members_lt]

theorem readTagged_tag (hp : pick word = some choice) :
    readTagged tag pick isFirst none
      (printMembersFrom isFirst ((tag, .str word) :: members) ++ '}' :: rest) =
    readTagged tag pick false (some choice) (printMembersFrom false members ++ '}' :: rest) := by
  have read : string.read (print (.str word) ++ (printMembersFrom false members ++ '}' :: rest)) =
      _ := agrees_string (.str word) word _ (.str word) delimited_members rfl
  rw [readTagged, nextName_cons]
  simp only [if_true, Option.isSome_none, Bool.false_eq_true, if_false, colon_cons, Except.bind,
    read, Scanned.andThen, hp, ofOption]
  rw [if_pos length_members_lt]

theorem readTagged_others (fits : ∀ member ∈ members, Fits (maxRoom - 1) member.2)
    (others : ∀ member ∈ members, member.1 ≠ tag) :
    readTagged tag pick isFirst found (printMembersFrom isFirst members ++ '}' :: rest) =
      .ok ((found, members), '}' :: rest) := by
  induction members generalizing isFirst
  case nil => rw [readTagged, nextName_nil]
  case cons member members hi =>
    obtain ⟨name, value⟩ := member
    rw [readTagged_other (fits (name, value) (by simp)) (others (name, value) (by simp)),
      hi (fun member hm => fits member (List.mem_cons_of_mem _ hm))
        fun member hm => others member (List.mem_cons_of_mem _ hm)]
    rfl

-- With the tag once among them, that is found and the others are kept.
theorem readTagged_print (hp : pick word = some choice)
    (fits : ∀ member ∈ members, Fits (maxRoom - 1) member.2)
    (h : members.filter (·.1 == tag) = [(name, .str word)]) :
    readTagged tag pick isFirst none (printMembersFrom isFirst members ++ '}' :: rest) =
      .ok ((some choice, members.filter (·.1 != tag)), '}' :: rest) := by
  induction members generalizing isFirst
  case nil => cases h
  case cons member members hi =>
    obtain ⟨name', value⟩ := member
    by_cases e : name' = tag
    case pos =>
      subst e
      rw [List.filter_cons_of_pos (by simp)] at h
      cases (List.cons.inj h).1
      have others : ∀ member ∈ members, member.1 ≠ name := by
        simpa using List.filter_eq_nil_iff.mp (List.cons.inj h).2
      rw [readTagged_tag hp, readTagged_others (fun member hm => fits member (by simp [hm])) others,
        List.filter_cons_of_neg (by simp), List.filter_eq_self.mpr (by simpa using others)]
    case neg =>
      rw [List.filter_cons_of_neg (by simpa using e)] at h
      rw [readTagged_other (fits (name', value) (by simp)) e,
        hi (fun member hm => fits member (List.mem_cons_of_mem _ hm)) h,
        List.filter_cons_of_pos (by simpa using e)]
      rfl

theorem agrees_tagged (tag : List Char) (pick : List Char → Option (Decoder α)) :
    Agrees (tagged tag pick) := by
  intro value a rest fits hr h
  cases value with
  | obj members =>
    simp only [tagged] at h
    split at h
    case h_2 => cases h
    case h_1 name word e =>
      obtain ⟨choice, hp, hc⟩ := Option.bind_eq_some_iff.mp h
      have read : readTagged tag pick true none (printMembersFrom true members ++ '}' :: rest) =
          _ := readTagged_print hp fits.members e
      rw [print_obj_append]
      simp [tagged, isSpace, readTaggedObject, read, Scanned.andThen, closing_cons, Except.bind, hc,
        ofOption]
  | arr values =>
    rcases values with _ | ⟨_ | _ | _ | _ | word | _ | _, values⟩
    case cons.str =>
      obtain ⟨choice, hp, hc⟩ := Option.bind_eq_some_iff.mp h
      have read : string.read (print (.str word) ++ (printItemsFrom false values ++ ']' :: rest)) =
          _ := agrees_string (.str word) word _ (.str word) delimited_items rfl
      have back : List.Forall₂ (ReadsBack (Json.value true (maxRoom - 1))) values values := by
        refine List.forall₂_same.mpr fun value hm => Fits.readsBack ?_
        exact fits.items value (List.mem_cons_of_mem _ hm)
      have first : Fits maxRoom (.str word) := .str word
      rw [print_arr_append]
      simp [tagged, isSpace, readTaggedArray, first.nextItem_cons, read, Scanned.andThen, hp,
        ofOption, items_printItemsFrom back, hc]
    all_goals cases h
  | null   => cases h
  | bool _ => cases h
  | nat _  => cases h
  | real _ => cases h
  | str _  => cases h

end Tagged

end Decoder

end BoolSearch.Json
