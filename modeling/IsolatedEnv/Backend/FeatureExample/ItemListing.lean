import IsolatedEnv.Backend.FeatureExample.Items
import IsolatedEnv.Foundation.IsoFormat
import IsolatedEnv.Foundation.JsonTree

/-!
# Listings through the cache

`cached` answers with what `_fetch` returned or with what `json.loads` makes of the
text in Redis, and `list_items` builds its models from either.  Times keep the offset
that the driver gave them.
-/

namespace IsolatedEnv.Backend

open IsolatedEnv.Foundation

structure ItemRow where
  id : Uuid
  title : String
  description : Option String
  ownerId : Uuid
  createdAt : DateTime
  updatedAt : DateTime

structure ItemFields where
  id : Uuid
  title : String
  description : Option String
  ownerId : Uuid
  createdAt : DateTime
  updatedAt : DateTime
  deriving DecidableEq

/-- What a dumped model holds. -/
inductive PyValue where
  | none
  | str (value : String)
  | uuid (value : Uuid)
  | datetime (value : DateTime)

/-- `str(d)`. -/
def dateTimeStr (d : DateTime) : String :=
  String.ofList (dateText d.civil ++ ' ' :: (timeText d.civil ++ offsetText d.offset))

/-- The encoder's view of a value; `default=str` stands in for what it does not know. -/
def PyValue.tree : PyValue → JsonTree
  | .none => .null
  | .str value => .text value
  | .uuid value => .text value.str
  | .datetime value => .text (dateTimeStr value)

/-- An argument of a model: a Python value, or one that `json.loads` has read. -/
abbrev Argument := PyValue ⊕ Json

/-- How pydantic reads a JSON value where it wants a UUID or a time. -/
structure Pydantic where
  uuid : Json → Option Uuid
  datetime : Json → Option DateTime

namespace Pydantic

variable (py : Pydantic)

def uuidField : Argument → Option Uuid
  | .inl (.uuid value) => some value
  | .inl _ => none
  | .inr v => py.uuid v

def datetimeField : Argument → Option DateTime
  | .inl (.datetime value) => some value
  | .inl _ => none
  | .inr v => py.datetime v

def strField : Argument → Option String
  | .inl (.str value) | .inr (.str value) => some value
  | _ => none

def optionalStrField : Argument → Option (Option String)
  | .inl .none | .inr .null => some none
  | .inl (.str value) | .inr (.str value) => some (some value)
  | _ => none

end Pydantic

namespace ItemFields

def modelValidate (i : ItemRow) : ItemFields :=
  ⟨i.id, i.title, i.description, i.ownerId, i.createdAt, i.updatedAt⟩

def modelDump (i : ItemFields) : List (String × PyValue) := [
  ("id", .uuid i.id),
  ("title", .str i.title),
  ("description", i.description.elim .none .str),
  ("owner_id", .uuid i.ownerId),
  ("created_at", .datetime i.createdAt),
  ("updated_at", .datetime i.updatedAt)]

/-- `ItemResponse(**i)`; the description has a default. -/
def make (py : Pydantic) (i : String → Option Argument) : Option ItemFields :=
  ((i "id").bind py.uuidField).bind fun id =>
    ((i "title").bind Pydantic.strField).bind fun title =>
      ((i "description").elim (some none) Pydantic.optionalStrField).bind fun description =>
        ((i "owner_id").bind py.uuidField).bind fun ownerId =>
          ((i "created_at").bind py.datetimeField).bind fun createdAt =>
            ((i "updated_at").bind py.datetimeField).map fun updatedAt =>
              ⟨id, title, description, ownerId, createdAt, updatedAt⟩

end ItemFields

namespace ItemService

open ItemFields

def fetch (rows : List ItemRow) : List (List (String × PyValue)) :=
  rows.map fun i => (modelValidate i).modelDump

/-- The models built from what `_fetch` returned. -/
def missed (py : Pydantic) (rows : List ItemRow) : Option (List ItemFields) :=
  (fetch rows).mapM fun i => make py fun name => (i.lookup name).map .inl

def storedText (rows : List ItemRow) : List Char :=
  JsonTree.dumps (.arr ((fetch rows).map fun i => .obj (i.map fun m => (m.1, m.2.tree))))

def makeParsed (py : Pydantic) : Json → Option ItemFields
  | .obj i => make py fun name => (JsonObject.get? i name).map .inr
  | _ => none

def hit (py : Pydantic) (text : List Char) : Option (List ItemFields) :=
  (JsonText.parse text).bind fun
    | .arr elements => elements.mapM (makeParsed py)
    | _ => none

end ItemService

/-! ## What is stored is what was fetched -/

/-- pydantic reads the `str` forms of the row's identifiers and times. -/
structure Pydantic.ReadsBack (py : Pydantic) (i : ItemRow) : Prop where
  id : py.uuid (.str i.id.str) = some i.id
  ownerId : py.uuid (.str i.ownerId.str) = some i.ownerId
  createdAt : py.datetime (.str (dateTimeStr i.createdAt)) = some i.createdAt
  updatedAt : py.datetime (.str (dateTimeStr i.updatedAt)) = some i.updatedAt

namespace ItemService

open ItemFields

variable {py : Pydantic} {rows : List ItemRow} {i : ItemRow}

/-- The JSON object that a row is read back as. -/
def parsedDump (i : ItemFields) : JsonObject :=
  JsonTree.jsonMembers (i.modelDump.map fun m => (m.1, m.2.tree))

theorem makeParsed_dump (h : py.ReadsBack i) :
    makeParsed py (.obj (parsedDump (modelValidate i))) = some (modelValidate i) := by
  obtain ⟨id, title, description, ownerId, createdAt, updatedAt⟩ := i
  obtain ⟨hid, howner, hcreated, hupdated⟩ := h
  cases description <;>
    simp [makeParsed, make, parsedDump, modelValidate, modelDump, PyValue.tree,
      JsonTree.jsonMembers, JsonTree.json, JsonObject.get?, Pydantic.uuidField,
      Pydantic.strField, Pydantic.optionalStrField, Pydantic.datetimeField, hid, howner,
      hcreated, hupdated]

theorem make_dump :
    (make py fun name => ((modelValidate i).modelDump.lookup name).map .inl) =
      some (modelValidate i) := by
  obtain ⟨id, title, description, ownerId, createdAt, updatedAt⟩ := i
  cases description <;> rfl

theorem jsonElements_objects (rows : List ItemFields) :
    JsonTree.jsonElements (rows.map fun i => .obj (i.modelDump.map fun m => (m.1, m.2.tree))) =
      rows.map fun i => .obj (parsedDump i) := by
  induction rows with
  | nil => rfl
  | cons i rows ih =>
      rw [List.map_cons, JsonTree.jsonElements, ih]
      rfl

theorem parse_storedText (rows : List ItemRow) :
    JsonText.parse (storedText rows) =
      some (.arr (rows.map fun i => .obj (parsedDump (modelValidate i)))) := by
  rw [storedText, JsonTree.parse_dumps, JsonTree.json, fetch, List.map_map]
  have helements := jsonElements_objects (rows.map modelValidate)
  rw [List.map_map, List.map_map] at helements
  exact congrArg (some ∘ Json.arr) helements

theorem mapM_eq_some {α β γ : Type} {f : β → Option γ} {g : α → β} {k : α → γ} {l : List α}
    (h : ∀ a ∈ l, f (g a) = some (k a)) : (l.map g).mapM f = some (l.map k) := by
  induction l with
  | nil => rfl
  | cons a l ih =>
      rw [List.map_cons, List.mapM_cons, h a List.mem_cons_self,
        ih fun b hb => h b (List.mem_cons_of_mem a hb)]
      rfl

/-- A listing is the same whether it comes from the cache or from the database. -/
theorem cache_hit_eq_miss (py : Pydantic) (rows : List ItemRow)
    (h : ∀ i ∈ rows, py.ReadsBack i) :
    hit py (storedText rows) = some (rows.map modelValidate) ∧
      missed py rows = some (rows.map modelValidate) := by
  constructor
  · rw [hit, parse_storedText]
    exact mapM_eq_some fun i hi => makeParsed_dump (h i hi)
  · exact mapM_eq_some fun i _ => make_dump

end ItemService

/-! ## The items of the tables -/

def Item.row (i : Item) : ItemRow :=
  ⟨i.id, i.title, i.description, i.ownerId, i.createdAt.dateTime, i.updatedAt.dateTime⟩

def ItemResponse.fields (i : ItemResponse) : ItemFields :=
  ⟨i.id, i.title, i.description, i.ownerId, i.createdAt.dateTime, i.updatedAt.dateTime⟩

/-! ## A reader of the two forms -/

/-- It takes a blank for the `T` between date and time. -/
def readDateTimeStr (text : String) : Option DateTime :=
  (fromIsoFormat (text.toList.set 10 'T')).bind fun p => p.2.map fun offset => ⟨p.1, offset⟩

theorem readDateTimeStr_str {d : DateTime} (hd : d.offset.Readable) :
    readDateTimeStr (dateTimeStr d) = some d := by
  have hlength : (dateText d.civil).length = 10 := by simp [dateText]
  have htext : (dateTimeStr d).toList.set 10 'T' = isoFormat d := by
    rw [dateTimeStr, String.toList_ofList, List.set_append_right _ _ hlength.le, hlength]
    rfl
  rw [readDateTimeStr, htext, fromIsoFormat_isoFormat hd]
  rfl

def textPydantic : Pydantic where
  uuid v := v.text?.bind fun text => Uuid.parse text.toList
  datetime v := v.text?.bind readDateTimeStr

theorem textPydantic_readsBack {i : ItemRow} (hcreated : i.createdAt.offset.Readable)
    (hupdated : i.updatedAt.offset.Readable) : textPydantic.ReadsBack i where
  id := by simp [textPydantic, Json.text?, Uuid.str]
  ownerId := by simp [textPydantic, Json.text?, Uuid.str]
  createdAt := by simp [textPydantic, Json.text?, readDateTimeStr_str hcreated]
  updatedAt := by simp [textPydantic, Json.text?, readDateTimeStr_str hupdated]

/-- What the service keeps of a listing is what the routes answer with. -/
theorem hit_of_items {items : List Item} :
    ItemService.hit textPydantic (ItemService.storedText (items.map Item.row)) =
      some (items.map fun i => i.response.fields) := by
  rw [ItemService.hit, ItemService.parse_storedText, List.map_map]
  refine ItemService.mapM_eq_some fun i _ => ?_
  exact ItemService.makeParsed_dump (textPydantic_readsBack (.inl rfl) (.inl rfl))

/-- Created at 12:00:00.000001 in a zone two hours ahead, with a title that needs escapes. -/
def jam : ItemRow where
  id := 7
  title := "\"Jam\"\n\t\u0001 crème 🍓"
  description := none
  ownerId := 1
  createdAt := ⟨⟨2025, 1, 1, 12, 0, 0, 1, by decide⟩, ⟨7200000000, by decide⟩⟩
  updatedAt := ⟨exampleTime, .utc⟩

theorem jam_from_cache :
    ItemService.hit textPydantic (ItemService.storedText [jam]) =
        some ([jam].map ItemFields.modelValidate) ∧
      ItemService.missed textPydantic [jam] = some ([jam].map ItemFields.modelValidate) :=
  ItemService.cache_hit_eq_miss textPydantic [jam] fun _ hi =>
    List.mem_singleton.mp hi ▸ textPydantic_readsBack (.inr (by decide)) (.inl rfl)

end IsolatedEnv.Backend
