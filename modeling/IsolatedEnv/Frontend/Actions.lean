import IsolatedEnv.Backend.FeatureExample.Schemas
import IsolatedEnv.Foundation.JsonText

/-!
# Validation on both sides

The zod schemas of the server actions, the requests that the data access layer builds
from what they return, and the checks of the backend.  JavaScript counts the UTF-16
code units of a string, Python its code points.
-/

namespace IsolatedEnv.Frontend

open IsolatedEnv.Foundation IsolatedEnv.Backend

/-! ## Strings -/

abbrev JsString := List (Fin 0x10000)

/-- Pairs of surrogates are joined, and a lone one is a code point of its own. -/
def codePoints : JsString → List Nat
  | high :: low :: rest =>
      if isHighSurrogate high && isLowSurrogate low then
        joinPair high low :: codePoints rest
      else high.val :: codePoints (low :: rest)
  | [unit] => [unit.val]
  | [] => []

def WellFormed (s : JsString) : Prop :=
  ∀ n ∈ codePoints s, isHighSurrogate n = false ∧ isLowSurrogate n = false

instance WellFormed.decidable (s : JsString) : Decidable (WellFormed s) :=
  inferInstanceAs (Decidable (∀ n ∈ codePoints s, _))

/-- The scalar values of a string, as a URL carries them: a lone surrogate is replaced. -/
def usvText (s : JsString) : String := String.ofList ((codePoints s).map pointChar)

/--
The text of a JSON body.  `JSON.stringify` escapes a lone surrogate, `json.loads` puts it
into a `str`, and pydantic refuses that as no Unicode string.
-/
def pythonText (s : JsString) : Option String :=
  if WellFormed s then some (usvText s) else none

/-! ## Schemas -/

/-- `none` stands for the numbers that are not finite. -/
inductive JsValue where
  | undefined
  | null
  | boolean (value : Bool)
  | number (value : Option Rat)
  | string (value : JsString)
  | array (elements : List JsValue)
  | object (members : List (String × JsValue))

def JsValue.member (v : JsValue) (name : String) : JsValue :=
  match v with
  | .object members => (members.lookup name).getD .undefined
  | _ => .undefined

def JsValue.isObject : JsValue → Bool
  | .object _ => true
  | _ => false

/-- `z.string().min(low).max(high)`. -/
def Zod.string (low high : Nat) : JsValue → Option JsString
  | .string s => if low ≤ s.length ∧ s.length ≤ high then some s else none
  | _ => none

/-- `schema.optional()`. -/
def Zod.optional {α : Type} (schema : JsValue → Option α) : JsValue → Option (Option α)
  | .undefined => some none
  | v => (schema v).map some

/-- `z.number().int().min(low)`, and `.max(high)` where there is one; `int` wants a safe integer. -/
def Zod.int (low : Int) (high : Option Int) : JsValue → Option Int
  | .number (some value) =>
      if value.den = 1 ∧ value.num.natAbs < 2 ^ 53 ∧ low ≤ value.num ∧
          ∀ bound ∈ high, value.num ≤ bound then some value.num
      else none
  | _ => none

/-- `schema.default(value)`. -/
def Zod.withDefault (value : Int) (schema : JsValue → Option Int) : JsValue → Option Int
  | .undefined => some value
  | v => schema v

structure CreateItemInput where
  title : JsString
  description : Option JsString

structure UpdateItemInput where
  title : Option JsString
  description : Option JsString

structure PaginationInput where
  offset : Int
  limit : Int
  search : Option JsString

def createItemSchema (v : JsValue) : Option CreateItemInput :=
  if v.isObject then
    (Zod.string 1 500 (v.member "title")).bind fun title =>
      (Zod.optional (Zod.string 0 2000) (v.member "description")).map fun description =>
        ⟨title, description⟩
  else none

def updateItemSchema (v : JsValue) : Option UpdateItemInput :=
  if v.isObject then
    (Zod.optional (Zod.string 1 500) (v.member "title")).bind fun title =>
      (Zod.optional (Zod.string 0 2000) (v.member "description")).map fun description =>
        ⟨title, description⟩
  else none

/-- `paginationSchema` of `example.ts`. -/
def itemPaginationSchema (v : JsValue) : Option PaginationInput :=
  if v.isObject then
    (Zod.withDefault 0 (Zod.int 0 none) (v.member "offset")).bind fun offset =>
      (Zod.withDefault 20 (Zod.int 1 (some 100)) (v.member "limit")).map fun limit =>
        ⟨offset, limit, none⟩
  else none

/-- `paginationSchema` of `admin.ts`. -/
def adminPaginationSchema (v : JsValue) : Option PaginationInput :=
  (itemPaginationSchema v).bind fun input =>
    (Zod.optional (Zod.string 0 200) (v.member "search")).map fun search =>
      { input with search := search }

/-! ## Requests -/

abbrev Query := List (String × String)

/-- The members of a JSON body, or the parameters of a query. -/
inductive BackendRequest where
  | createItem (body : List (String × JsString))
  | updateItem (body : List (String × JsString))
  | listItems (query : Query)
  | listUsers (query : Query)

/-- `JSON.stringify` leaves a member out that is `undefined`. -/
def stringMember (name : String) (value : Option JsString) : List (String × JsString) :=
  value.toList.map fun s => (name, s)

def createItem (data : CreateItemInput) : BackendRequest :=
  .createItem (("title", data.title) :: stringMember "description" data.description)

def updateItem (data : UpdateItemInput) : BackendRequest :=
  .updateItem (stringMember "title" data.title ++
    stringMember "description" data.description)

/-- `String(offset)` is the decimal text for a safe integer, which the schemas ask for. -/
def getItems (offset limit : Int) : BackendRequest :=
  .listItems [("offset", toString offset), ("limit", toString limit)]

/-- An empty search is left out. -/
def getAdminUsers (offset limit : Int) (search : Option JsString) (role : Option UserRole)
    (isActive : Option Bool) : BackendRequest :=
  .listUsers ([("offset", toString offset), ("limit", toString limit)] ++
    ((search.filter (· ≠ [])).toList.map fun s => ("search", usvText s)) ++
    (role.toList.map fun r => ("role", r.value)) ++
    isActive.toList.map fun b => ("is_active", toString b))

/-- What is handed to the schema of a server action. -/
inductive ActionInput where
  | create (data : JsValue)
  | update (data : JsValue)
  | items (pagination : JsValue)
  | users (pagination : JsValue)

/-- The request of an action, `none` when its schema throws. -/
def ActionInput.request : ActionInput → Option BackendRequest
  | .create data => (createItemSchema data).map createItem
  | .update data => (updateItemSchema data).map updateItem
  | .items v => (itemPaginationSchema v).map fun input => getItems input.offset input.limit
  | .users v => (adminPaginationSchema v).map fun input =>
      getAdminUsers input.offset input.limit input.search none none

/-! ## The backend's checks -/

/-- How pydantic reads the text of an integer or Boolean parameter. -/
structure QueryParser where
  int : String → Option Int
  bool : String → Option Bool
  int_toString : ∀ n : Nat, n < 2 ^ 53 → int (toString n) = some (n : Int)

def receivedBody (body : List (String × JsString)) : Option Json :=
  (body.mapM fun m => (pythonText m.2).map fun text => (m.1, Json.str text)).map .obj

/-- A parameter that is left out takes its default, which passes the check. -/
def paramOk (query : Query) (name : String) (check : String → Bool) : Bool :=
  (query.lookup name).all check

def offsetOk (parser : QueryParser) (query : Query) : Bool :=
  paramOk query "offset" fun text => (parser.int text).any fun n => 0 ≤ n

def limitOk (parser : QueryParser) (query : Query) : Bool :=
  paramOk query "limit" fun text => (parser.int text).any fun n => 1 ≤ n && n ≤ 100

def listItemsOk (parser : QueryParser) (query : Query) : Bool :=
  offsetOk parser query && limitOk parser query

def listUsersOk (parser : QueryParser) (query : Query) : Bool :=
  paramOk query "role" (fun text => text ∈ [UserRole.free, .paid, .admin].map UserRole.value) &&
    paramOk query "is_active" (fun text => (parser.bool text).isSome) &&
    paramOk query "search" (fun text => text.length ≤ 100) &&
    offsetOk parser query && limitOk parser query

def BackendRequest.accepted (parser : QueryParser) : BackendRequest → Bool
  | .createItem body => ((receivedBody body).bind ItemCreate.validate).isSome
  | .updateItem body => ((receivedBody body).bind ItemUpdate.validate).isSome
  | .listItems query => listItemsOk parser query
  | .listUsers query => listUsersOk parser query

/-! ## Lengths -/

theorem codePoints_length_le (s : JsString) : (codePoints s).length ≤ s.length := by
  induction s using codePoints.induct with
  | case1 high low rest hpair ih =>
      rw [codePoints, if_pos hpair]
      simp only [List.length_cons]
      omega
  | case2 high low rest hpair ih =>
      rw [codePoints, if_neg hpair]
      simpa using ih
  | case3 unit => simp [codePoints]
  | case4 => simp [codePoints]

theorem codePoints_length_pos {s : JsString} (h : 1 ≤ s.length) :
    1 ≤ (codePoints s).length := by
  unfold codePoints
  split
  · split <;> simp
  · simp
  · exact absurd h (by decide)

theorem usvText_length (s : JsString) : (usvText s).length = (codePoints s).length := by
  simp [usvText]

/-! ## Bodies -/

theorem receivedBody_eq (body : List (String × JsString)) :
    receivedBody body =
      if ∀ m ∈ body, WellFormed m.2 then
        some (.obj (body.map fun m => (m.1, .str (usvText m.2))))
      else none := by
  have hmembers : (body.mapM fun m => (pythonText m.2).map fun text => (m.1, Json.str text)) =
      if ∀ m ∈ body, WellFormed m.2 then
        some (body.map fun m => (m.1, .str (usvText m.2))) else none := by
    induction body with
    | nil => rfl
    | cons m body ih =>
        rw [List.mapM_cons, ih]
        simp only [List.forall_mem_cons]
        by_cases hm : WellFormed m.2
        · by_cases hbody : ∀ m ∈ body, WellFormed m.2
          · rw [if_pos hbody, if_pos ⟨hm, hbody⟩]
            simp [pythonText, hm]
          · have hboth : ¬ (WellFormed m.2 ∧ ∀ m ∈ body, WellFormed m.2) :=
              fun h => hbody h.2
            rw [if_neg hbody, if_neg hboth]
            simp [pythonText, hm]
        · have hboth : ¬ (WellFormed m.2 ∧ ∀ m ∈ body, WellFormed m.2) := fun h => hm h.1
          rw [if_neg hboth]
          simp [pythonText, hm]
  rw [receivedBody, hmembers]
  split <;> rfl

section Accepted

variable {parser : QueryParser} {title description : Option JsString}

def itemBody (title description : Option JsString) : List (String × JsString) :=
  stringMember "title" title ++ stringMember "description" description

def jsonText (s : JsString) : Json := .str (usvText s)

theorem receivedBody_itemBody :
    receivedBody (itemBody title description) =
      if (∀ s ∈ title, WellFormed s) ∧ ∀ s ∈ description, WellFormed s then
        some (.obj ((itemBody title description).map fun m => (m.1, jsonText m.2)))
      else none := by
  rw [receivedBody_eq]
  refine if_congr ?_ rfl rfl
  cases title <;> cases description <;> simp [itemBody, stringMember]

theorem get?_itemBody (title description : Option JsString) :
    JsonObject.get? ((itemBody title description).map fun m => (m.1, jsonText m.2)) "title" =
        title.map jsonText ∧
      JsonObject.get? ((itemBody title description).map fun m => (m.1, jsonText m.2))
        "description" = description.map jsonText := by
  cases title <;> cases description <;> simp [itemBody, stringMember, JsonObject.get?]

theorem textField_jsonText {low high : Nat} {s : Option JsString} :
    (textField low high (s.map jsonText)).isSome ↔
      ∀ t ∈ s, low ≤ (codePoints t).length ∧ (codePoints t).length ≤ high := by
  cases s with
  | none => simp [textField]
  | some t => simp [jsonText, textField_text, usvText_length]

theorem join_of_textField {low high : Nat} {s : Option JsString} {field : TextField low high}
    (h : textField low high (s.map jsonText) = some field) :
    field.1.join = s.map usvText := by
  have hvalue := textField_value h
  rcases hfield : field.1 with _ | (_ | text) <;> cases s <;>
    simp_all [jsonText]

/-- A string in a body passes for a text of the given bounds. -/
def Passes (low high : Nat) (s : JsString) : Prop :=
  WellFormed s ∧ low ≤ (codePoints s).length ∧ (codePoints s).length ≤ high

theorem forall_passes {low high : Nat} {s : Option JsString} :
    (∀ t ∈ s, Passes low high t) ↔ (∀ t ∈ s, WellFormed t) ∧
      (textField low high (s.map jsonText)).isSome := by
  rw [textField_jsonText]
  simp only [Passes, ← forall₂_and]

theorem createItem_accepted {s : JsString} :
    (BackendRequest.createItem (itemBody (some s) description)).accepted parser = true ↔
      Passes 1 255 s ∧ ∀ d ∈ description, Passes 0 10000 d := by
  obtain ⟨htitle, hdescription⟩ := get?_itemBody (some s) description
  have htext : (∃ text, JsonObject.get? ((itemBody (some s) description).map fun m =>
      (m.1, jsonText m.2)) "title" = some (.str text) ∧ 1 ≤ text.length ∧
        text.length ≤ 255) ↔ 1 ≤ (codePoints s).length ∧ (codePoints s).length ≤ 255 := by
    rw [htitle]
    simp [jsonText, usvText_length]
  rw [BackendRequest.accepted, receivedBody_itemBody, forall_passes]
  split
  · rename_i hwellFormed
    rw [Option.bind_some, ItemCreate.validate_isSome, hdescription, htext, Passes,
      and_iff_right (hwellFormed.1 s rfl), and_iff_right hwellFormed.2]
  · rename_i hill
    exact iff_of_false (by simp) fun h => hill ⟨by simpa using h.1.1, h.2.1⟩

theorem updateItem_accepted :
    (BackendRequest.updateItem (itemBody title description)).accepted parser = true ↔
      (∀ s ∈ title, Passes 1 255 s) ∧ (∀ d ∈ description, Passes 0 10000 d) ∧
        (title ≠ none ∨ description ≠ none) := by
  obtain ⟨htitle, hdescription⟩ := get?_itemBody title description
  rw [BackendRequest.accepted, receivedBody_itemBody, forall_passes, forall_passes]
  split
  · rename_i hwellFormed
    rw [Option.bind_some, ItemUpdate.validate_isSome, htitle, hdescription,
      and_iff_right hwellFormed.1, and_iff_right hwellFormed.2]
    constructor
    · rintro ⟨t, d, ht, hd, hnotEmpty⟩
      rw [join_of_textField ht, join_of_textField hd] at hnotEmpty
      simpa [ht, hd] using hnotEmpty
    · rintro ⟨ht, hd, hnotEmpty⟩
      obtain ⟨t, ht⟩ := Option.isSome_iff_exists.mp ht
      obtain ⟨d, hd⟩ := Option.isSome_iff_exists.mp hd
      refine ⟨t, d, ht, hd, ?_⟩
      rw [join_of_textField ht, join_of_textField hd]
      simpa using hnotEmpty
  · rename_i hill
    exact iff_of_false (by simp) fun h => hill ⟨h.1.1, h.2.1.1⟩

/-! ## What the schemas let through -/

def textMember (v : JsValue) (name : String) : Option JsString :=
  match v.member name with
  | .string s => some s
  | _ => none

theorem Zod.string_eq_some {low high : Nat} {v : JsValue} {s : JsString}
    (h : Zod.string low high v = some s) : v = .string s ∧ low ≤ s.length ∧ s.length ≤ high := by
  unfold Zod.string at h
  split at h
  · split at h
    · rename_i hlength
      cases h
      exact ⟨rfl, hlength⟩
    · cases h
  · cases h

theorem Zod.optional_eq_some {low high : Nat} {v : JsValue} {name : String} {s : Option JsString}
    (h : Zod.optional (Zod.string low high) (v.member name) = some s) :
    textMember v name = s ∧ ∀ t ∈ s, low ≤ t.length ∧ t.length ≤ high := by
  unfold textMember
  unfold Zod.optional at h
  split at h
  · rename_i hundefined
    cases h
    simp [hundefined]
  · obtain ⟨t, ht, rfl⟩ := Option.map_eq_some_iff.mp h
    obtain ⟨hmember, hlength⟩ := Zod.string_eq_some ht
    simp [hmember, hlength]

theorem Zod.int_eq_some {low n : Int} {high : Option Int} {v : JsValue}
    (h : Zod.int low high v = some n) : low ≤ n ∧ n < 2 ^ 53 ∧ ∀ bound ∈ high, n ≤ bound := by
  unfold Zod.int at h
  split at h
  · split at h
    · rename_i hvalid
      cases h
      obtain ⟨-, hsafe, hlow, hhigh⟩ := hvalid
      exact ⟨hlow, by omega, hhigh⟩
    · cases h
  · cases h

theorem Zod.withDefault_eq_some {value low n : Int} {high : Option Int} {v : JsValue}
    (hvalue : low ≤ value ∧ value < 2 ^ 53 ∧ ∀ bound ∈ high, value ≤ bound)
    (h : Zod.withDefault value (Zod.int low high) v = some n) :
    low ≤ n ∧ n < 2 ^ 53 ∧ ∀ bound ∈ high, n ≤ bound := by
  unfold Zod.withDefault at h
  split at h
  · cases h
    exact hvalue
  · exact Zod.int_eq_some h

end Accepted

/-! ## The two sides compared -/

section Pagination

variable {parser : QueryParser} {input : PaginationInput} {v : JsValue}

theorem itemPagination_bounds (h : itemPaginationSchema v = some input) :
    (0 ≤ input.offset ∧ input.offset < 2 ^ 53) ∧ 1 ≤ input.limit ∧ input.limit ≤ 100 ∧
      input.search = none := by
  unfold itemPaginationSchema at h
  split at h
  · obtain ⟨offset, hoffset, h⟩ := Option.bind_eq_some_iff.mp h
    obtain ⟨limit, hlimit, rfl⟩ := Option.map_eq_some_iff.mp h
    obtain ⟨hlow, hsafe, -⟩ := Zod.withDefault_eq_some (by simp) hoffset
    obtain ⟨hone, -, hhundred⟩ := Zod.withDefault_eq_some (by simp) hlimit
    exact ⟨⟨hlow, hsafe⟩, hone, hhundred 100 rfl, rfl⟩
  · cases h

theorem int_toString_of_safe {n : Int} (h : 0 ≤ n ∧ n < 2 ^ 53) :
    parser.int (toString n) = some n := by
  obtain ⟨m, rfl⟩ := Int.eq_ofNat_of_zero_le h.1
  exact parser.int_toString m (by omega)

theorem offsetOk_cons {n : Int} (h : 0 ≤ n ∧ n < 2 ^ 53) (query : Query) :
    offsetOk parser (("offset", toString n) :: query) = true := by
  change (parser.int (toString n)).any (fun n => 0 ≤ n) = true
  rw [int_toString_of_safe h]
  simpa using h.1

theorem limitOk_second {n : Int} (hlow : 1 ≤ n) (hhigh : n ≤ 100) (offset : String)
    (query : Query) :
    limitOk parser (("offset", offset) :: ("limit", toString n) :: query) = true := by
  change (parser.int (toString n)).any (fun n => 1 ≤ n && n ≤ 100) = true
  rw [int_toString_of_safe (by omega)]
  simpa using ⟨hlow, hhigh⟩

theorem getItems_accepted {offset limit : Int} (hoffset : 0 ≤ offset ∧ offset < 2 ^ 53)
    (hlow : 1 ≤ limit)
    (hhigh : limit ≤ 100) : (getItems offset limit).accepted parser = true := by
  rw [getItems, BackendRequest.accepted, listItemsOk, offsetOk_cons hoffset,
    limitOk_second hlow hhigh, Bool.and_self]

theorem getAdminUsers_accepted {offset limit : Int} (hoffset : 0 ≤ offset ∧ offset < 2 ^ 53)
    (hlow : 1 ≤ limit)
    (hhigh : limit ≤ 100) (search : Option JsString) :
    (getAdminUsers offset limit search none none).accepted parser = true ↔
      ∀ s ∈ search, (codePoints s).length ≤ 100 := by
  have hquery (search : Query) : listUsersOk parser (("offset", toString offset) ::
      ("limit", toString limit) :: search) = true ↔
        paramOk search "role" (fun text => text ∈ [UserRole.free, .paid, .admin].map
            UserRole.value) = true ∧
          paramOk search "is_active" (fun text => (parser.bool text).isSome) = true ∧
          paramOk search "search" (fun text => text.length ≤ 100) = true := by
    rw [listUsersOk, offsetOk_cons hoffset, limitOk_second hlow hhigh]
    simp [paramOk, List.lookup_cons, and_assoc]
  rw [getAdminUsers, BackendRequest.accepted]
  simp only [Option.toList_none, List.map_nil, List.append_nil, List.cons_append,
    List.nil_append, hquery]
  rcases search with _ | s
  · simp [paramOk]
  · by_cases hempty : s = []
    · simp [paramOk, hempty, codePoints, Option.filter]
    · simp [paramOk, hempty, Option.filter, usvText_length]

end Pagination

/-- Where the schemas let through more than the backend does. -/
def ActionInput.WithinLimits : ActionInput → Prop
  | .create data =>
      (∀ s ∈ textMember data "title", WellFormed s ∧ (codePoints s).length ≤ 255) ∧
        ∀ s ∈ textMember data "description", WellFormed s
  | .update data =>
      (∀ s ∈ textMember data "title", WellFormed s ∧ (codePoints s).length ≤ 255) ∧
        (∀ s ∈ textMember data "description", WellFormed s) ∧
        (textMember data "title" ≠ none ∨ textMember data "description" ≠ none)
  | .items _ => True
  | .users v => ∀ s ∈ textMember v "search", (codePoints s).length ≤ 100

theorem passes_title {s : JsString} (h : 1 ≤ s.length) :
    Passes 1 255 s ↔ WellFormed s ∧ (codePoints s).length ≤ 255 := by
  simp [Passes, codePoints_length_pos h]

theorem passes_description {s : JsString} (h : s.length ≤ 2000) :
    Passes 0 10000 s ↔ WellFormed s := by
  have hlength := codePoints_length_le s
  have hfits : (codePoints s).length ≤ 10000 := by omega
  simp [Passes, hfits]

/-- What zod lets through is accepted by pydantic exactly within the backend's own limits. -/
theorem client_validation_suffices_iff (parser : QueryParser) (input : ActionInput)
    (r : BackendRequest) (h : input.request = some r) :
    r.accepted parser = true ↔ input.WithinLimits := by
  cases input with
  | create data =>
      obtain ⟨item, hitem, rfl⟩ := Option.map_eq_some_iff.mp h
      unfold createItemSchema at hitem
      split at hitem
      · obtain ⟨title, htitle, hitem⟩ := Option.bind_eq_some_iff.mp hitem
        obtain ⟨description, hdescription, rfl⟩ := Option.map_eq_some_iff.mp hitem
        obtain ⟨hmember, hlength, -⟩ := Zod.string_eq_some htitle
        obtain ⟨hdescription, hshort⟩ := Zod.optional_eq_some hdescription
        have htitle : textMember data "title" = some title := by simp [textMember, hmember]
        refine createItem_accepted.trans ?_
        rw [ActionInput.WithinLimits, htitle, hdescription, passes_title hlength]
        simp only [Option.mem_def, Option.some.injEq, forall_eq']
        exact and_congr_right fun _ => forall₂_congr fun d hd =>
          passes_description (hshort d hd).2
      · cases hitem
  | update data =>
      obtain ⟨item, hitem, rfl⟩ := Option.map_eq_some_iff.mp h
      unfold updateItemSchema at hitem
      split at hitem
      · obtain ⟨title, htitle, hitem⟩ := Option.bind_eq_some_iff.mp hitem
        obtain ⟨description, hdescription, rfl⟩ := Option.map_eq_some_iff.mp hitem
        obtain ⟨htitle, hlength⟩ := Zod.optional_eq_some htitle
        obtain ⟨hdescription, hshort⟩ := Zod.optional_eq_some hdescription
        refine updateItem_accepted.trans ?_
        rw [ActionInput.WithinLimits, htitle, hdescription]
        exact and_congr (forall₂_congr fun s hs => passes_title (hlength s hs).1)
          (and_congr_left fun _ => forall₂_congr fun d hd =>
            passes_description (hshort d hd).2)
      · cases hitem
  | items v =>
      obtain ⟨input, hinput, rfl⟩ := Option.map_eq_some_iff.mp h
      obtain ⟨hoffset, hlow, hhigh, -⟩ := itemPagination_bounds hinput
      exact iff_of_true (getItems_accepted hoffset hlow hhigh) trivial
  | users v =>
      obtain ⟨input, hinput, rfl⟩ := Option.map_eq_some_iff.mp h
      obtain ⟨items, hitems, hinput⟩ := Option.bind_eq_some_iff.mp hinput
      obtain ⟨search, hsearch, rfl⟩ := Option.map_eq_some_iff.mp hinput
      obtain ⟨hoffset, hlow, hhigh, -⟩ := itemPagination_bounds hitems
      obtain ⟨hmember, -⟩ := Zod.optional_eq_some hsearch
      rw [ActionInput.WithinLimits, hmember]
      exact getAdminUsers_accepted hoffset hlow hhigh search


/-! ## Inputs beyond the limits of the backend -/

/-- It reads decimal digits, and `true` and `false`. -/
def plainParser : QueryParser where
  int text :=
    if text ≠ "" ∧ text.toList.all Char.isDigit then
      some (Nat.ofDigitChars 10 text.toList 0)
    else none
  bool text := if text = "true" then some true else if text = "false" then some false else none
  int_toString n _ := by
    have hdigits : (toString n).toList = Nat.toDigits 10 n := by
      rw [Nat.toString_eq_ofList_toDigits, String.toList_ofList]
    have hne : toString n ≠ "" := by
      intro h
      have hlength := congrArg String.toList h
      rw [hdigits] at hlength
      exact Nat.toDigits_ne_nil hlength
    have hall : (toString n).toList.all Char.isDigit = true := by
      rw [hdigits, List.all_eq_true]
      exact fun c hc => Nat.isDigit_of_mem_toDigits (by decide) (by decide) hc
    refine (if_pos ⟨hne, hall⟩).trans ?_
    rw [hdigits, Nat.ofDigitChars_ten_toDigits]

/-- `count` times the letter x. -/
def letters (count : Nat) : JsString := List.replicate count 120

def named (title : JsString) : JsValue := .object [("title", .string title)]

def searching (search : JsString) : JsValue := .object [("search", .string search)]

theorem codePoints_of_noHigh {s : JsString} (h : ∀ unit ∈ s, isHighSurrogate unit = false) :
    codePoints s = s.map Fin.val := by
  induction s using codePoints.induct with
  | case1 high low rest hpair ih => simp [h high] at hpair
  | case2 high low rest hpair ih =>
      rw [codePoints, if_neg hpair, ih fun unit hunit => h unit (List.mem_cons_of_mem _ hunit)]
      rfl
  | case3 unit => rfl
  | case4 => rfl

theorem letters_length (count : Nat) : (letters count).length = count :=
  List.length_replicate

theorem codePoints_letters (count : Nat) : (codePoints (letters count)).length = count := by
  rw [codePoints_of_noHigh, List.length_map, letters_length]
  intro unit hunit
  rw [List.eq_of_mem_replicate hunit]
  decide

theorem short_title_suffices :
    (BackendRequest.createItem (itemBody (some (letters 3)) none)).accepted plainParser = true := by
  apply (client_validation_suffices_iff plainParser (.create (named (letters 3)))
    (.createItem (itemBody (some (letters 3)) none)) rfl).mpr
  exact ⟨by decide, by decide⟩

theorem named_request {title : JsString} (h : 1 ≤ title.length ∧ title.length ≤ 500) :
    (ActionInput.create (named title)).request =
      some (.createItem (itemBody (some title) none)) := by
  simp [ActionInput.request, createItemSchema, named, JsValue.isObject, JsValue.member, Zod.string,
    h, Zod.optional, createItem, itemBody, stringMember, List.lookup_cons]

theorem searching_request {search : JsString} (h : search.length ≤ 200) :
    (ActionInput.users (searching search)).request =
      some (getAdminUsers 0 20 (some search) none none) := by
  simp [ActionInput.request, adminPaginationSchema, itemPaginationSchema, searching,
    JsValue.isObject, JsValue.member, Zod.withDefault, Zod.string, h, Zod.optional, List.lookup_cons]

/-- A long title, a lone surrogate, an update of nothing and a long search. -/
theorem limits_differ :
    (∃ r, (ActionInput.create (named (letters 256))).request = some r ∧
        ¬ r.accepted plainParser = true) ∧
      (∃ r, (ActionInput.create (named [0xD800])).request = some r ∧
        ¬ r.accepted plainParser = true) ∧
      (∃ r, (ActionInput.update (.object [])).request = some r ∧
        ¬ r.accepted plainParser = true) ∧
      ∃ r, (ActionInput.users (searching (letters 101))).request = some r ∧
        ¬ r.accepted plainParser = true := by
  refine ⟨⟨_, named_request (by rw [letters_length]; decide), fun h => ?_⟩,
    ⟨_, named_request (by decide), fun h => ?_⟩, ⟨_, rfl, by decide⟩,
    ⟨_, searching_request (by rw [letters_length]; decide), fun h => ?_⟩⟩
  · have hlength := (createItem_accepted.mp h).1.2.2
    rw [codePoints_letters] at hlength
    exact absurd hlength (by decide)
  · exact absurd (createItem_accepted.mp h).1.1 (by decide)
  · have hlength := (getAdminUsers_accepted (by decide) (by decide) (by decide) _).mp h _ rfl
    rw [codePoints_letters] at hlength
    exact absurd hlength (by decide)

end IsolatedEnv.Frontend
