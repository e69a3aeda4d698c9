import BoolSearch.Json.Reader

namespace BoolSearch

namespace Json

structure Decoder (α : Type) where
  -- The first problem counts, be it of the text or of the type.
  read : List Char → Scanned α
  -- Takes a value that has been read already. The flag says whether an empty object may stand for
  -- null.
  ofJson : Bool → Json → Option α

namespace Decoder

def ofOption (value : Option α) (rest : List Char) : Scanned α :=
  match value with
  | none   => .error .mismatch
  | some a => .ok (a, rest)

-- A value without parts is read to its end before its type is looked at.
def readScalar (pick : Json → Option α) (text : List Char) : Scanned α :=
  match skipSpace text with
  | []        => .error .truncated
  | c :: text =>
    if c = '[' ∨ c = '{' then .error .mismatch
    else (Json.scalar true (c :: text)).andThen fun value rest => ofOption (pick value) rest

def scalar (pick : Json → Option α) : Decoder α where
  read := readScalar pick
  ofJson _ := pick

def nat : Decoder Nat :=
  scalar fun | .nat n => some n | _ => none

def string : Decoder (List Char) :=
  scalar fun | .str text => some text | _ => none

def unit (a : α) : Decoder α where
  read := readScalar fun | .null => some a | _ => none
  ofJson
    | _, .null         => some a
    | emptyIs, .obj [] => if emptyIs then some a else none
    | _, _             => none

def map (f : α → β) (decoder : Decoder α) : Decoder β where
  read text := (decoder.read text).map f
  ofJson emptyIs value := (decoder.ofJson emptyIs value).map f

def ofText (decoder : Decoder α) (text : List Char) : Except Fault α :=
  complete (decoder.read text)

structure Variant (α : Type) where
  name : List Char
  alone : Option α
  content : Decoder α

def Variant.const (name : String) (a : α) : Variant α :=
  ⟨name.toList, some a, unit a⟩

def Variant.of (name : String) (content : Decoder α) : Variant α :=
  ⟨name.toList, none, content⟩

def Variant.find? (variants : List (Variant α)) (name : List Char) : Option (Variant α) :=
  variants.find? (·.name == name)

-- What names an alternative has to be a string, as any name in an object. Otherwise the text is no
-- JSON, whatever stands there.
def readVariant (variants : List (Variant α)) (text : List Char) : Scanned α :=
  (nameAt true text).andThen fun name rest =>
    match Variant.find? variants name with
    | none         => .error .mismatch
    | some variant =>
      (colon rest).bind fun rest =>
        (variant.content.read rest).andThen fun a rest => (closing '}' rest).map (a, ·)

def oneOf (variants : List (Variant α)) : Decoder α where
  read text :=
    match skipSpace text with
    | []        => .error .truncated
    | c :: text =>
      if c = '"' then
        (stringRest true text).andThen fun name rest =>
          ofOption ((Variant.find? variants name).bind (·.alone)) rest
      else if c = '{' then readVariant variants text
      else .error .malformed
  ofJson
    | _, .str name                  => (Variant.find? variants name).bind (·.alone)
    | emptyIs, .obj [(name, value)] =>
      (Variant.find? variants name).bind (·.content.ofJson emptyIs value)
    | _, _ => none

structure Field (σ : Type) where
  name : List Char
  isSet : σ → Bool
  read : σ → List Char → Scanned σ
  ofJson : Bool → σ → Json → Option σ

def Field.of (name : String) (get : σ → Option α) (set : σ → α → σ) (decoder : Decoder α) :
    Field σ where
  name := name.toList
  isSet draft := (get draft).isSome
  read draft text := (decoder.read text).map (set draft)
  ofJson emptyIs draft value := (decoder.ofJson emptyIs value).map (set draft)

def Field.find? (fields : List (Field σ)) (name : List Char) : Option (Field σ) :=
  fields.find? (·.name == name)

-- Reads what follows a name in an object: the value of a field that has none yet. What is no
-- field is passed over.
def readMember (fields : List (Field σ)) (draft : σ) (name text : List Char) : Scanned σ :=
  match Field.find? fields name with
  | none       => ((colon text).bind skip).map (draft, ·)
  | some field =>
    if field.isSet draft then .error .mismatch else (colon text).bind (field.read draft)

def readMembers (fields : List (Field σ)) (isFirst : Bool) (draft : σ) (text : List Char) :
    Scanned σ :=
  match nextName true isFirst text with
  | .error fault          => .error fault
  | .ok (.close rest)     => .ok (draft, rest)
  | .ok (.name name rest) =>
    (readMember fields draft name rest).andThen fun draft rest =>
      if rest.length < text.length then readMembers fields false draft rest
      else .error .malformed
termination_by text.length

-- Reads the items of an array as the fields in their order, up to the bracket or to the last
-- field.
def readItems (fields : List (Field σ)) (isFirst : Bool) (draft : σ) (text : List Char) :
    Scanned σ :=
  match fields with
  | []              => .ok (draft, text)
  | field :: fields =>
    match nextItem isFirst text with
    | .error fault      => .error fault
    | .ok (.close rest) => .ok (draft, rest)
    | .ok (.item rest)  =>
      (field.read draft rest).andThen fun draft rest => readItems fields false draft rest

def finish (finished : σ → Option α) (bracket : Char) (draft : σ) (rest : List Char) : Scanned α :=
  match finished draft with
  | none   => .error .mismatch
  | some a => (closing bracket rest).map (a, ·)

def ofMembers (fields : List (Field σ)) (emptyIs : Bool) (draft : σ) :
    List (List Char × Json) → Option σ
  | []                       => some draft
  | (name, value) :: members =>
    match Field.find? fields name with
    | none       => ofMembers fields emptyIs draft members
    | some field =>
      if field.isSet draft then none
      else (field.ofJson emptyIs draft value).bind (ofMembers fields emptyIs · members)

def ofItems (emptyIs : Bool) (draft : σ) : List (Field σ) → List Json → Option σ
  | _, [] => some draft
  | [], _ :: _ => none
  | field :: fields, value :: values =>
    (field.ofJson emptyIs draft value).bind (ofItems emptyIs · fields values)

-- A record: an object with its fields in any order, or an array with its fields in this order.
-- Whether fields may be missing, and what they are then, is for `finished` to say.
def record (fields : List (Field σ)) (draft : σ) (finished : σ → Option α) : Decoder α where
  read text :=
    match skipSpace text with
    | []        => .error .truncated
    | c :: text =>
      if c = '{' then (readMembers fields true draft text).andThen (finish finished '}')
      else if c = '[' then (readItems fields true draft text).andThen (finish finished ']')
      else readScalar (fun _ => none) (c :: text)
  ofJson
    | emptyIs, .obj members => (ofMembers fields emptyIs draft members).bind finished
    | emptyIs, .arr values  => (ofItems emptyIs draft fields values).bind finished
    | _, _                  => none

def list (decoder : Decoder α) : Decoder (List α) where
  read text :=
    match skipSpace text with
    | []        => .error .truncated
    | c :: text =>
      if c = '[' then items decoder.read true text
      else readScalar (fun _ => none) (c :: text)
  ofJson
    | emptyIs, .arr values => values.mapM (decoder.ofJson emptyIs)
    | _, _                 => none

-- Reads the members of an object with a tag up to its brace. The tag is looked at where it
-- stands, the other members are kept.
def readTagged (tag : List Char) (pick : List Char → Option β) (isFirst : Bool)
    (found : Option β) (text : List Char) : Scanned (Option β × List (List Char × Json)) :=
  match nextName true isFirst text with
  | .error fault          => .error fault
  | .ok (.close rest)     => .ok ((found, []), rest)
  | .ok (.name name rest) =>
    if name = tag then
      if found.isSome then .error .mismatch
      else (colon rest).bind fun rest =>
        (string.read rest).andThen fun word rest =>
          (ofOption (pick word) rest).andThen fun choice rest =>
            if rest.length < text.length then readTagged tag pick false (some choice) rest
            else .error .malformed
    else (colon rest).bind fun rest =>
      (value true (maxRoom - 1) rest).andThen fun value rest =>
        if rest.length < text.length then
          (readTagged tag pick false found rest).map fun (found, members) =>
            (found, (name, value) :: members)
        else .error .malformed
termination_by text.length

def readTaggedObject (tag : List Char) (pick : List Char → Option (Decoder α))
    (text : List Char) : Scanned α :=
  (readTagged tag pick true none text).andThen fun (found, members) rest =>
    match found with
    | none         => .error .mismatch
    | some content => (closing '}' rest).bind (ofOption (content.ofJson true (.obj members)))

def readTaggedArray (pick : List Char → Option (Decoder α)) (text : List Char) :
    Scanned α :=
  match nextItem true text with
  | .error fault     => .error fault
  | .ok (.close _)   => .error .mismatch
  | .ok (.item rest) =>
    (string.read rest).andThen fun word rest =>
      (ofOption (pick word) rest).andThen fun content rest =>
        (items (value true (maxRoom - 1)) false rest).andThen fun values rest =>
          ofOption (content.ofJson true (.arr values)) rest

-- One of several alternatives with fields: an object that names it in the member `tag`, or an
-- array that starts with its name. The rest is kept, and taken by the decoder that `pick` gives.
def tagged (tag : List Char) (pick : List Char → Option (Decoder α)) : Decoder α where
  read text :=
    match skipSpace text with
    | []        => .error .truncated
    | c :: text =>
      if c = '{' then readTaggedObject tag pick text
      else if c = '[' then readTaggedArray pick text
      else readScalar (fun _ => none) (c :: text)
  ofJson
    | _, .obj members =>
      match members.filter (·.1 == tag) with
      | [(_, .str name)] =>
        (pick name).bind (·.ofJson true (.obj (members.filter (·.1 != tag))))
      | _ => none
    | _, .arr (.str name :: values) => (pick name).bind (·.ofJson true (.arr values))
    | _, _ => none

end Decoder

end Json

end BoolSearch
