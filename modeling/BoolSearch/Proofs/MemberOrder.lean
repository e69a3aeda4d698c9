import BoolSearch.Json.Printer
import BoolSearch.Proofs.Decoders
import Mathlib.Data.List.Nodup
import Mathlib.Data.List.Pairwise

namespace BoolSearch.Json

variable {α β σ : Type} {value : Json} {name tag : List Char}
  {members members' placed : List (List Char × Json)}

-- No object in the value has two members of one name.
inductive Distinct : Json → Prop
  | null : Distinct null
  | bool (value : Bool) : Distinct (bool value)
  | nat (n : Nat) : Distinct (nat n)
  | real (written : List Char) : Distinct (real written)
  | str (text : List Char) : Distinct (str text)
  | arr {items : List Json} (inside : ∀ item ∈ items, Distinct item) : Distinct (arr items)
  | obj {members : List (List Char × Json)} (names : (members.map Prod.fst).Nodup)
    (inside : ∀ member ∈ members, Distinct member.2) : Distinct (obj members)

theorem Distinct.names (h : Distinct (.obj members)) : (members.map Prod.fst).Nodup := by
  cases h
  case obj names _ => exact names

theorem Distinct.inside (h : Distinct (.obj members)) {member : List Char × Json}
    (hm : member ∈ members) : Distinct member.2 := by
  cases h
  case obj inside => exact inside member hm

theorem Distinct.filter (h : Distinct (.obj members)) (p : List Char × Json → Bool) :
    Distinct (.obj (members.filter p)) := by
  refine .obj ?_ fun member hm => h.inside (List.mem_of_mem_filter hm)
  exact h.names.sublist (List.filter_sublist.map _)

theorem distinct_ofString (s : String) : Distinct (.ofString s) :=
  .str _

theorem Distinct.ofMembers {members : List (String × Json)}
    (names : (members.map fun member => member.1.toList).Nodup)
    (inside : ∀ member ∈ members, Distinct member.2) : Distinct (.ofMembers members) := by
  refine .obj ?_ (List.forall_mem_map.mpr inside)
  rwa [List.map_map]

section Sorting

theorem sortedItems_eq (items : List Json) : sortedItems items = items.map sorted := by
  induction items
  case nil        => rfl
  case cons _ _ h => rw [sortedItems, h, List.map_cons]

theorem forall_mem_insertMember {p : Json → Prop} (hv : p value)
    (h : ∀ member ∈ members, p member.2) :
    ∀ member ∈ insertMember name value members, p member.2 := by
  induction members
  case nil => simp [insertMember, hv]
  case cons first members hi =>
    have ⟨head, tail⟩ := List.forall_mem_cons.mp h
    unfold insertMember
    split
    case isTrue => exact List.forall_mem_cons.mpr ⟨hv, tail⟩
    split
    case isTrue  => exact List.forall_mem_cons.mpr ⟨hv, h⟩
    case isFalse => exact List.forall_mem_cons.mpr ⟨head, hi tail⟩

theorem forall_mem_sortedMembers {p : Json → Prop} (h : ∀ member ∈ members, p member.2.sorted)
    (hp : ∀ member ∈ placed, p member.2) : ∀ member ∈ sortedMembers members placed, p member.2 := by
  induction members generalizing placed
  case nil => exact hp
  case cons first members hi =>
    have ⟨head, tail⟩ := List.forall_mem_cons.mp h
    exact hi tail (forall_mem_insertMember head hp)

theorem Fits.sorted {room : Nat} (h : Fits room value) : Fits room value.sorted := by
  induction h
  case null      => exact .null
  case bool b    => exact .bool b
  case nat small => exact .nat small
  case str text  => exact .str text
  case arr hi =>
    refine .arr ?_
    rw [sortedItems_eq]
    exact List.forall_mem_map.mpr hi
  case obj hi => exact .obj (forall_mem_sortedMembers hi (by simp))

theorem insertMember_perm (h : name ∉ members.map Prod.fst) :
    (insertMember name value members).Perm ((name, value) :: members) := by
  induction members
  case nil => exact .refl _
  case cons first members hi =>
    obtain ⟨name', value'⟩ := first
    have ⟨ne, new⟩ : name ≠ name' ∧ name ∉ members.map Prod.fst := by simpa using h
    rw [insertMember, if_neg ne]
    split
    case isTrue  => exact .refl _
    case isFalse => exact ((hi new).cons _).trans (.swap _ _ _)

abbrev sortedValue : List Char × Json → List Char × Json :=
  Prod.map id sorted

theorem sortedMembers_perm (h : ((members ++ placed).map Prod.fst).Nodup) :
    (sortedMembers members placed).Perm (members.map sortedValue ++ placed) := by
  induction members generalizing placed
  case nil => exact .refl _
  case cons first members hi =>
    obtain ⟨name, value⟩ := first
    simp only [List.cons_append, List.map_cons, List.nodup_cons] at h
    have ⟨new, others⟩ := h
    have new' : name ∉ placed.map Prod.fst := by
      rw [List.map_append] at new
      exact mt (List.mem_append_right _) new
    have insert : (insertMember name value.sorted placed).Perm _ := insertMember_perm new'
    have names : ((members ++ insertMember name value.sorted placed).map Prod.fst).Nodup := by
      have perm := ((insert.append_left members).trans List.perm_middle).map Prod.fst
      rw [perm.nodup_iff]
      exact List.nodup_cons.mpr ⟨new, others⟩
    exact (hi names).trans ((insert.append_left _).trans List.perm_middle)

end Sorting

namespace Decoder

variable {decoder : Decoder α}

-- Does it make no difference to the decoder in which order the members of an object are, be it the
-- value that it takes or a part of it?
structure IgnoresOrder (decoder : Decoder α) : Prop where
  perm : ∀ emptyIs members members', (members.map Prod.fst).Nodup → members.Perm members' →
    decoder.ofJson emptyIs (.obj members) = decoder.ofJson emptyIs (.obj members')
  members : ∀ emptyIs members, Distinct (.obj members) →
    decoder.ofJson emptyIs (.obj (members.map sortedValue)) = decoder.ofJson emptyIs (.obj members)
  items : ∀ emptyIs items, Distinct (.arr items) →
    decoder.ofJson emptyIs (.arr (items.map Json.sorted)) = decoder.ofJson emptyIs (.arr items)

theorem map_fst_sortedValue (members : List (List Char × Json)) :
    (members.map sortedValue).map Prod.fst = members.map Prod.fst := by
  simp

theorem IgnoresOrder.sorted (h : IgnoresOrder decoder) (hd : Distinct value) (emptyIs : Bool) :
    decoder.ofJson emptyIs value.sorted = decoder.ofJson emptyIs value := by
  cases hd
  case arr items inside =>
    rw [Json.sorted, sortedItems_eq]
    exact h.items emptyIs items (.arr inside)
  case obj members names inside =>
    have perm : (sortedMembers members []).Perm (members.map sortedValue ++ []) :=
      sortedMembers_perm (by rwa [List.append_nil])
    rw [List.append_nil] at perm
    have names' : ((members.map sortedValue).map Prod.fst).Nodup := by rwa [map_fst_sortedValue]
    rw [Json.sorted, ← h.members emptyIs members (.obj names inside)]
    exact (h.perm emptyIs _ _ names' perm.symm).symm
  all_goals rfl

theorem IgnoresOrder.takes_sorted (h : IgnoresOrder decoder) {a : α} (hd : Distinct value)
    (ht : decoder.Takes value a) : decoder.Takes value.sorted a := by
  intro emptyIs
  rw [h.sorted hd, ht emptyIs]

theorem ignoresOrder_scalar {pick : Json → Option α} (hp : Scalar pick) :
    IgnoresOrder (scalar pick) where
  perm _ _ _ _ _ := (hp.obj _).trans (hp.obj _).symm
  members _ _ _ := (hp.obj _).trans (hp.obj _).symm
  items _ _ _ := (hp.arr _).trans (hp.arr _).symm

theorem ignoresOrder_nat : IgnoresOrder nat :=
  ignoresOrder_scalar ⟨fun _ => rfl, fun _ => rfl⟩

theorem ignoresOrder_unit (a : α) : IgnoresOrder (unit a) where
  perm emptyIs members members' _ h := by
    cases members
    case nil => rw [h.nil_eq]
    case cons =>
      cases members'
      case nil  => cases h.symm.nil_eq
      case cons => cases emptyIs <;> rfl
  members emptyIs members _ := by cases members <;> cases emptyIs <;> rfl
  items emptyIs _ _ := by cases emptyIs <;> rfl

theorem IgnoresOrder.map (h : IgnoresOrder decoder) (f : α → β) :
    IgnoresOrder (decoder.map f) where
  perm emptyIs members members' names perm :=
    congrArg (Option.map f) (h.perm emptyIs members members' names perm)
  members emptyIs members hd := congrArg (Option.map f) (h.members emptyIs members hd)
  items emptyIs items hd := congrArg (Option.map f) (h.items emptyIs items hd)

-- An object that stands for an alternative has one member only.
theorem ignoresOrder_oneOf {variants : List (Variant α)}
    (hv : ∀ variant ∈ variants, IgnoresOrder variant.content) :
    IgnoresOrder (oneOf variants) where
  perm emptyIs members members' _ h := by
    match members, members', h with
    | [], _, h => rw [h.nil_eq]
    | [member], members', h => rw [List.singleton_perm.mp h]
    | _ :: _ :: _, _ :: _ :: _, _ => rfl
    | _ :: _ :: _, [], h => cases h.symm.nil_eq
    | _ :: _ :: _, [_], h => simp at h
  members emptyIs members hd := by
    match members with
    | [] => rfl
    | _ :: _ :: _ => rfl
    | [(name, value)] =>
      show (Variant.find? variants name).bind (·.content.ofJson emptyIs value.sorted) =
        (Variant.find? variants name).bind (·.content.ofJson emptyIs value)
      cases hf : Variant.find? variants name
      case none => rfl
      case some variant =>
        have content := hv variant (mem_of_find?_variant hf)
        exact content.sorted (hd.inside List.mem_cons_self) emptyIs
  items _ _ _ := rfl

-- What a field makes of a draft in which it has no value yet.
def Field.put? (field : Field σ) (emptyIs : Bool) (draft : σ) (value : Json) : Option σ :=
  if field.isSet draft then none else field.ofJson emptyIs draft value

-- Do two fields come to the same, whichever of them is first?
def Field.Independent (first second : Field σ) : Prop :=
  ∀ emptyIs draft value value',
    (first.put? emptyIs draft value).bind (second.put? emptyIs · value') =
      (second.put? emptyIs draft value').bind (first.put? emptyIs · value)

instance : Std.Symm (Field.Independent (σ := σ)) where
  symm _ _ h emptyIs draft value value' := (h emptyIs draft value' value).symm

theorem Field.independent_of {name name' : String} {get : σ → Option α} {set : σ → α → σ}
    {get' : σ → Option β} {set' : σ → β → σ} {decoder : Decoder α} {decoder' : Decoder β}
    (apart : ∀ draft a, get' (set draft a) = get' draft)
    (apart' : ∀ draft b, get (set' draft b) = get draft)
    (both : ∀ draft a b, set' (set draft a) b = set (set' draft b) a) :
    (Field.of name get set decoder).Independent (Field.of name' get' set' decoder') := by
  intro emptyIs draft value value'
  simp only [Field.put?, Field.of]
  cases decoder.ofJson emptyIs value <;> cases decoder'.ofJson emptyIs value' <;>
    by_cases given : (get draft).isSome <;> by_cases given' : (get' draft).isSome <;>
    simp [given, given', apart, apart', both]

def Field.IgnoresOrder (field : Field σ) : Prop :=
  ∀ emptyIs draft value, Distinct value →
    field.ofJson emptyIs draft value.sorted = field.ofJson emptyIs draft value

theorem IgnoresOrder.field (h : IgnoresOrder decoder) (name : String) (get : σ → Option α)
    (set : σ → α → σ) : (Field.of name get set decoder).IgnoresOrder :=
  fun emptyIs draft _ hd => congrArg (Option.map (set draft)) (h.sorted hd emptyIs)

section Records

variable {fields : List (Field σ)} {draft : σ} {emptyIs : Bool}

theorem ofMembers_cons : ofMembers fields emptyIs draft ((name, value) :: members) =
    match Field.find? fields name with
    | none       => ofMembers fields emptyIs draft members
    | some field => (field.put? emptyIs draft value).bind (ofMembers fields emptyIs · members) := by
  rw [ofMembers]
  cases Field.find? fields name
  case none => rfl
  case some field =>
    show (if field.isSet draft then none else _) = Option.bind (ite _ none _) _
    split <;> rfl

theorem name_of_find? {field : Field σ} (h : Field.find? fields name = some field) :
    field ∈ fields ∧ field.name = name :=
  ⟨List.mem_of_find?_eq_some h, by simpa using List.find?_some h⟩

-- Two members of different names in front of the others.
theorem ofMembers_swap (hf : fields.Pairwise Field.Independent) {name' : List Char} {value' : Json}
    (ne : name ≠ name') :
    ofMembers fields emptyIs draft ((name, value) :: (name', value') :: members) =
      ofMembers fields emptyIs draft ((name', value') :: (name, value) :: members) := by
  simp only [ofMembers_cons]
  cases h : Field.find? fields name with
  | none => rfl
  | some first =>
    cases h' : Field.find? fields name' with
    | none => rfl
    | some second =>
      have ⟨hm, hn⟩ := name_of_find? h
      have ⟨hm', hn'⟩ := name_of_find? h'
      have other : first ≠ second := by
        rintro rfl
        exact ne (hn.symm.trans hn')
      have independent := hf.forall hm hm' other emptyIs draft value value'
      simp only [← Option.bind_assoc, independent]

theorem ofMembers_perm (hf : fields.Pairwise Field.Independent)
    (names : (members.map Prod.fst).Nodup) (h : members.Perm members') :
    ofMembers fields emptyIs draft members = ofMembers fields emptyIs draft members' := by
  induction h generalizing draft
  case nil => rfl
  case cons first _ _ _ hi =>
    obtain ⟨name, value⟩ := first
    have tail := (List.nodup_cons.mp names).2
    simp only [ofMembers_cons]
    split
    case h_1 => exact hi tail
    case h_2 => exact congrArg _ (funext fun _ => hi tail)
  case swap second first _ =>
    refine ofMembers_swap hf ?_
    rintro e
    simp [e] at names
  case trans perm _ hi hi' => exact (hi names).trans (hi' ((perm.map _).nodup_iff.mp names))

theorem ofMembers_sorted (hf : ∀ field ∈ fields, field.IgnoresOrder)
    (hd : ∀ member ∈ members, Distinct member.2) :
    ofMembers fields emptyIs draft (members.map sortedValue) =
      ofMembers fields emptyIs draft members := by
  induction members generalizing draft
  case nil => rfl
  case cons member members hi =>
    obtain ⟨name, value⟩ := member
    have ⟨head, tail⟩ := List.forall_mem_cons.mp hd
    show ofMembers fields emptyIs draft ((name, value.sorted) :: members.map sortedValue) = _
    rw [ofMembers_cons, ofMembers_cons]
    cases h : Field.find? fields name with
    | none => exact hi tail
    | some field =>
      have first := hf field (name_of_find? h).1 emptyIs draft value head
      simp only [Field.put?, first, hi tail]

theorem ofItems_sorted {items : List Json} (hf : ∀ field ∈ fields, field.IgnoresOrder)
    (hd : ∀ item ∈ items, Distinct item) :
    ofItems emptyIs draft fields (items.map Json.sorted) = ofItems emptyIs draft fields items := by
  induction items generalizing draft fields
  case nil => rfl
  case cons item items hi =>
    cases fields
    case nil => rfl
    case cons field fields =>
      have ⟨head, tail⟩ := List.forall_mem_cons.mp hd
      have ⟨first, others⟩ := List.forall_mem_cons.mp hf
      simp only [List.map_cons, ofItems, first emptyIs draft item head, hi others tail]

theorem ignoresOrder_record (independent : fields.Pairwise Field.Independent)
    (hf : ∀ field ∈ fields, field.IgnoresOrder) (draft : σ) (finished : σ → Option α) :
    IgnoresOrder (record fields draft finished) where
  perm _ _ _ names perm := congrArg (·.bind finished) (ofMembers_perm independent names perm)
  members _ _ hd := congrArg (·.bind finished) (ofMembers_sorted hf fun _ hm => hd.inside hm)
  items _ _ hd := by
    cases hd
    case arr inside => exact congrArg (·.bind finished) (ofItems_sorted hf inside)

theorem ignoresOrder_list (h : IgnoresOrder decoder) : IgnoresOrder (list decoder) where
  perm _ _ _ _ _ := rfl
  members _ _ _ := rfl
  items emptyIs items hd := by
    cases hd
    case arr inside =>
      show (items.map Json.sorted).mapM (decoder.ofJson emptyIs) =
        items.mapM (decoder.ofJson emptyIs)
      induction items
      case nil => rfl
      case cons item items hi =>
        have ⟨head, tail⟩ := List.forall_mem_cons.mp inside
        simp only [List.map_cons, List.mapM_cons, h.sorted head, hi tail]

end Records

section Tagged

variable {pick : List Char → Option (Decoder α)}

theorem length_filter_le_one (names : (members.map Prod.fst).Nodup) :
    (members.filter (·.1 == tag)).length ≤ 1 := by
  have count := List.nodup_iff_count_le_one.mp names tag
  rwa [List.count, List.countP_map, List.countP_eq_length_filter] at count

theorem filter_eq_of_perm (names : (members.map Prod.fst).Nodup) (h : members.Perm members') :
    members.filter (·.1 == tag) = members'.filter (·.1 == tag) := by
  have perm := h.filter (·.1 == tag)
  have single : (members.filter (·.1 == tag)).length ≤ 1 := length_filter_le_one names
  generalize members.filter (·.1 == tag) = filtered at perm single
  match filtered with
  | []       => exact perm.nil_eq
  | [member] => exact List.singleton_perm.mp perm

-- The order within the values has no say in which members are looked at.
theorem filter_map_sortedValue (p : List Char → Bool) (members : List (List Char × Json)) :
    (members.map sortedValue).filter (fun member => p member.1) =
      (members.filter fun member => p member.1).map sortedValue :=
  List.filter_map ..

theorem ignoresOrder_tagged (hp : ∀ word, ∀ content ∈ pick word, IgnoresOrder content) :
    IgnoresOrder (tagged tag pick) where
  perm emptyIs members members' names perm := by
    have others := perm.filter (·.1 != tag)
    have names' : ((members.filter (·.1 != tag)).map Prod.fst).Nodup :=
      names.sublist (List.filter_sublist.map _)
    simp only [tagged, ← filter_eq_of_perm names perm]
    split
    case h_1 name word _ =>
      exact Option.bind_congr fun content picked =>
        (hp word content picked).perm true _ _ names' others
    case h_2 => rfl
  members emptyIs members hd := by
    have tags := filter_map_sortedValue (· == tag) members
    have others := filter_map_sortedValue (· != tag) members
    simp only [tagged, tags, others]
    generalize members.filter (·.1 == tag) = tags
    rcases tags with _ | ⟨⟨name, _ | _ | _ | _ | word | _ | _⟩, _ | ⟨second, more⟩⟩
    case cons.str.nil =>
      exact Option.bind_congr fun content picked =>
        (hp word content picked).members true _ (hd.filter _)
    all_goals rfl
  items emptyIs items hd := by
    rcases items with _ | ⟨_ | _ | _ | _ | word | _ | _, values⟩
    case cons.str =>
      have values_distinct : Distinct (.arr values) := by
        cases hd
        case arr inside => exact .arr (List.forall_mem_cons.mp inside).2
      exact Option.bind_congr fun content picked =>
        (hp word content picked).items true values values_distinct
    all_goals rfl

end Tagged

end Decoder

end BoolSearch.Json
