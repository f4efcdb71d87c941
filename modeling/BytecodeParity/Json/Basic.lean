/-!
JSON values. Objects keep their fields in the order of the text, repeated names included, and
numbers keep their text; what a repeated field means is for the reader of the object to say.
-/

set_option autoImplicit false

namespace BytecodeParity

inductive Json where
  | null
  | bool (value : Bool)
  | number (digits : String)
  | text (value : String)
  /-- A string whose escapes name half of a surrogate pair, so that it stands for no text. -/
  | brokenText
  | list (items : List Json)
  | object (fields : List (String × Json))

namespace Json

mutual

def isReadable : Json → Bool
  | .brokenText => false
  | .list items => areReadable items
  | .object fields => areReadableFields fields
  | _ => true

def areReadable : List Json → Bool
  | [] => true
  | item :: items => isReadable item && areReadable items

def areReadableFields : List (String × Json) → Bool
  | [] => true
  | (_, value) :: fields => isReadable value && areReadableFields fields

end

def ofTexts (texts : List String) : Json :=
  .list (texts.map .text)

def ofOption {α : Type} (encode : α → Json) : Option α → Json
  | none => .null
  | some value => encode value

def text? : Json → Option String
  | .text value => some value
  | _ => none

def bool? : Json → Option Bool
  | .bool value => some value
  | _ => none

def items? : Json → Option (List Json)
  | .list items => some items
  | _ => none

def listOf? {α : Type} (decode : Json → Option α) (json : Json) : Option (List α) :=
  json.items?.bind fun items => items.mapM decode

def texts? : Json → Option (List String) :=
  listOf? text?

def nullable? {α : Type} (decode : Json → Option α) : Json → Option (Option α)
  | .null => some none
  | json => (decode json).map some

def valuesOf (name : String) (fields : List (String × Json)) : List Json :=
  (fields.filter fun field => field.1 = name).map (·.2)

/-- The value of a field that may be left out; `none` when the name is repeated. -/
def field? (name : String) (fields : List (String × Json)) : Option (Option Json) :=
  match valuesOf name fields with
  | [] => some none
  | [value] => some (some value)
  | _ => none

/-- The values of the named fields, each once at most, other fields being ignored. A list gives the
fields by position and has to give all of them. -/
def record? (names : List String) : Json → Option (List (Option Json))
  | .object fields => names.mapM fun name => field? name fields
  | .list items => if items.length = names.length then some (items.map some) else none
  | _ => none

end Json

end BytecodeParity
