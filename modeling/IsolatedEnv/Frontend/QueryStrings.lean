import IsolatedEnv.Backend.App
import IsolatedEnv.Foundation.FormUrlencoded
import IsolatedEnv.Frontend.Actions
import Mathlib.Data.List.TakeWhile

/-!
# Listings over the wire

The data-access layer writes a listing's parameters with `URLSearchParams` into the
request target; Starlette takes the query apart and FastAPI reads the parameters from it.
-/

namespace IsolatedEnv.Frontend

open IsolatedEnv.Foundation IsolatedEnv.Backend

/-! ## What is sent -/

/-- A lone surrogate is sent as U+FFFD; `String` of a safe integer is its decimal text. -/
def getAuditLog (offset limit : Int) (action : Option AuditAction) (search : Option JsString) :
    Query :=
  [("offset", toString offset), ("limit", toString limit)] ++
    (action.toList.map fun a => ("action", a.value)) ++
    (search.filter (· ≠ [])).toList.map fun s => ("search", usvText s)

def BackendRequest.query : BackendRequest → Query
  | .listItems query | .listUsers query => query
  | .createItem _ | .updateItem _ => []

/-- `${path}?${params}`. -/
def requestTarget (path : String) (query : Query) : List Char :=
  path.toList ++ '?' :: FormUrlencoded.serialize query

/-! ## What is read -/

/-- What the server puts into the scope as `query_string`. -/
def queryString (target : List Char) : List Char :=
  ((target.dropWhile (· ≠ '?')).drop 1).takeWhile (· ≠ '#')

section Read

variable (parser : QueryParser) (query : Query)

/-- Of several parameters of one name the last one counts. -/
def param (name : String) : Option String := query.reverse.lookup name

/-- A parameter that has a default; `none` is a value that its check refuses. -/
def optionalParam {α : Type} (default : α) (name : String) (read : String → Option α) :
    Option α :=
  (param query name).elim (some default) read

def offsetParam : Option Nat :=
  optionalParam query 0 "offset" fun text =>
    (parser.int text).bind fun n => if 0 ≤ n then some n.toNat else none

def limitParam : Option Nat :=
  optionalParam query 20 "limit" fun text =>
    (parser.int text).bind fun n => if 1 ≤ n ∧ n ≤ 100 then some n.toNat else none

def searchParam : Option (Option String) :=
  optionalParam query none "search" fun text =>
    if text.length ≤ 100 then some (some text) else none

def roleParam : Option (Option UserRole) :=
  optionalParam query none "role" fun text =>
    ([UserRole.free, .paid, .admin].find? fun role => role.value = text).map some

def isActiveParam : Option (Option Bool) :=
  optionalParam query none "is_active" fun text => (parser.bool text).map some

def listUsersParams : Option (UserFilter × Nat × Nat) := do
  let role ← roleParam query
  let isActive ← isActiveParam parser query
  let search ← searchParam query
  let offset ← offsetParam parser query
  let limit ← limitParam parser query
  some (⟨role, isActive, search⟩, offset, limit)

def listAuditLogParams : Option (AuditFilter × Nat × Nat) := do
  let search ← searchParam query
  let offset ← offsetParam parser query
  let limit ← limitParam parser query
  some (⟨param query "action", search⟩, offset, limit)

def listItemsParams : Option (Nat × Nat) := do
  let offset ← offsetParam parser query
  let limit ← limitParam parser query
  some (offset, limit)

end Read

/-- The three listings, as a target reaches them. -/
inductive Listing where
  | users
  | auditLog
  | items

def Listing.path : Listing → String
  | .users => "/api/v1/admin/users"
  | .auditLog => "/api/v1/admin/audit-log"
  | .items => "/api/v1/items"

def Listing.route (parser : QueryParser) (lossy : List UInt8 → String) (listing : Listing)
    (target : List Char) : Route :=
  let query := FormUrlencoded.parseQsl lossy (queryString target)
  match listing with
  | .users => .user (.listUsers (listUsersParams parser query))
  | .auditLog => .user (.listAuditLog (listAuditLogParams parser query))
  | .items => .item (.listItems (listItemsParams parser query))

/-! ## No text leaves its place -/

theorem serialize_ne_hash (query : Query) {c : Char} (h : c ∈ FormUrlencoded.serialize query) :
    c ≠ '#' := by
  rintro rfl
  rcases FormUrlencoded.mem_serialize h with hwritten | hsep | hsep
  · exact hwritten.ne rfl (by decide) (by decide) rfl
  · exact absurd hsep (by decide)
  · exact absurd hsep (by decide)

theorem queryString_requestTarget (listing : Listing) (query : Query) :
    queryString (requestTarget listing.path query) = FormUrlencoded.serialize query := by
  have hpath : listing.path.toList.all (fun c => c ≠ '?') = true := by
    cases listing <;> decide
  have hhash (c : Char) (hc : c ∈ FormUrlencoded.serialize query) : decide (c ≠ '#') = true :=
    decide_eq_true (serialize_ne_hash query hc)
  unfold queryString requestTarget
  rw [List.dropWhile_append_of_pos (List.all_eq_true.mp hpath)]
  exact List.takeWhile_eq_self_iff.mpr hhash

/-- Whatever a query holds, the reader finds the pairs that were written. -/
theorem received_query (lossy : List UInt8 → String) (listing : Listing) (query : Query) :
    FormUrlencoded.parseQsl lossy (queryString (requestTarget listing.path query)) = query := by
  rw [queryString_requestTarget, FormUrlencoded.parseQsl_serialize]

/-! ## The parameters arrive -/

/-- The search that the backend gets to see, the text of the scalar values. -/
def sought (search : Option JsString) : Option String := (search.filter (· ≠ [])).map usvText

section Params

variable {parser : QueryParser} {offset limit : Int} {search : Option JsString}

theorem offsetParam_eq {query : Query} (h : param query "offset" = some (toString offset))
    (hoffset : 0 ≤ offset ∧ offset < 2 ^ 53) :
    offsetParam parser query = some offset.toNat := by
  unfold offsetParam optionalParam
  rw [h, Option.elim_some, int_toString_of_safe hoffset, Option.bind_some, if_pos hoffset.1]

theorem limitParam_eq {query : Query} (h : param query "limit" = some (toString limit))
    (hlow : 1 ≤ limit) (hhigh : limit ≤ 100) : limitParam parser query = some limit.toNat := by
  have hsafe : 0 ≤ limit ∧ limit < 2 ^ 53 := by omega
  unfold limitParam optionalParam
  rw [h, Option.elim_some, int_toString_of_safe hsafe, Option.bind_some,
    if_pos ⟨hlow, hhigh⟩]

theorem searchParam_eq {query : Query} (search : Option JsString)
    (h : param query "search" = sought search)
    (hlength : ∀ s ∈ search, (codePoints s).length ≤ 100) :
    searchParam query = some (sought search) := by
  unfold searchParam optionalParam
  rw [h]
  unfold sought
  cases hfilter : search.filter (· ≠ []) with
  | none => rfl
  | some s =>
      have hmem := (Option.filter_eq_some_iff.mp hfilter).1
      rw [Option.map_some, Option.elim_some, if_pos]
      rw [usvText_length]
      exact hlength s hmem

theorem roleParam_eq {query : Query} (role : Option UserRole)
    (h : param query "role" = role.map UserRole.value) : roleParam query = some role := by
  unfold roleParam optionalParam
  rw [h]
  cases role with
  | none => rfl
  | some r => cases r <;> rfl

theorem isActiveParam_eq {query : Query} (isActive : Option Bool)
    (hbool : ∀ b : Bool, parser.bool (toString b) = some b)
    (h : param query "is_active" = isActive.map toString) :
    isActiveParam parser query = some isActive := by
  unfold isActiveParam optionalParam
  rw [h]
  cases isActive with
  | none => rfl
  | some b => rw [Option.map_some, Option.elim_some, hbool, Option.map_some]

end Params

theorem param_concat (query : Query) (name text other : String) :
    param (query ++ [(name, text)]) other =
      if other = name then some text else param query other := by
  unfold param
  rw [List.reverse_append, List.reverse_singleton, List.singleton_append, List.lookup_cons]
  by_cases h : other = name
  · rw [if_pos h, beq_iff_eq.mpr h]
  · rw [if_neg h, beq_false_of_ne h]

/-- A parameter that is set when it is there. -/
theorem param_append {α : Type} (query : Query) (value : Option α) (name other : String)
    (text : α → String) :
    param (query ++ value.toList.map fun v => (name, text v)) other =
      if other = name then (value.map text).or (param query other) else param query other := by
  cases value with
  | none => simp
  | some v => exact param_concat query name (text v) other

theorem param_pages (offset limit other : String) :
    param [("offset", offset), ("limit", limit)] other =
      if other = "limit" then some limit else if other = "offset" then some offset else none := by
  rw [show [("offset", offset), ("limit", limit)] = [("offset", offset)] ++ [("limit", limit)]
    from rfl, param_concat, ← List.nil_append [("offset", offset)], param_concat]
  rfl

section Listings

variable {parser : QueryParser} {offset limit : Int} {search : Option JsString}
  (hoffset : 0 ≤ offset ∧ offset < 2 ^ 53) (hlow : 1 ≤ limit) (hhigh : limit ≤ 100)
  (hlength : ∀ s ∈ search, (codePoints s).length ≤ 100)

include hoffset hlow hhigh in
theorem listItemsParams_eq :
    listItemsParams parser (getItems offset limit).query = some (offset.toNat, limit.toNat) := by
  unfold listItemsParams getItems BackendRequest.query
  rw [offsetParam_eq (by rw [param_pages]; rfl) hoffset,
    limitParam_eq (by rw [param_pages]; rfl) hlow hhigh]
  rfl

include hoffset hlow hhigh hlength in
theorem listUsersParams_eq (hbool : ∀ b : Bool, parser.bool (toString b) = some b)
    (role : Option UserRole) (isActive : Option Bool) :
    listUsersParams parser (getAdminUsers offset limit search role isActive).query =
      some (⟨role, isActive, sought search⟩, offset.toNat, limit.toNat) := by
  unfold listUsersParams getAdminUsers BackendRequest.query
  rw [roleParam_eq role (by simp only [param_append, param_pages]; simp),
    isActiveParam_eq isActive hbool
      (by simp only [param_append, param_pages]; simp),
    searchParam_eq search
      (by simp only [param_append, param_pages]; simp [sought]) hlength,
    offsetParam_eq (by simp only [param_append, param_pages]; rfl) hoffset,
    limitParam_eq (by simp only [param_append, param_pages]; rfl) hlow hhigh]
  rfl

include hoffset hlow hhigh hlength in
theorem listAuditLogParams_eq (action : Option AuditAction) :
    listAuditLogParams parser (getAuditLog offset limit action search) =
      some (⟨action.map AuditAction.value, sought search⟩, offset.toNat, limit.toNat) := by
  unfold listAuditLogParams getAuditLog
  rw [searchParam_eq search
      (by simp only [param_append, param_pages]; simp [sought]) hlength,
    offsetParam_eq (by simp only [param_append, param_pages]; rfl) hoffset,
    limitParam_eq (by simp only [param_append, param_pages]; rfl) hlow hhigh]
  simp only [param_append, param_pages]
  simp

end Listings

/--
Whatever the search text is, the backend reads the page, the filters and the search that the
listing was asked for.
-/
theorem listings_arrive (parser : QueryParser)
    (hbool : ∀ b : Bool, parser.bool (toString b) = some b) (lossy : List UInt8 → String)
    (offset limit : Int) (hoffset : 0 ≤ offset ∧ offset < 2 ^ 53) (hlow : 1 ≤ limit)
    (hhigh : limit ≤ 100) (search : Option JsString)
    (hlength : ∀ s ∈ search, (codePoints s).length ≤ 100) :
    (∀ role isActive, Listing.users.route parser lossy (requestTarget Listing.users.path
        (getAdminUsers offset limit search role isActive).query) =
      .user (.listUsers (some (⟨role, isActive, sought search⟩, offset.toNat, limit.toNat)))) ∧
    (∀ action, Listing.auditLog.route parser lossy (requestTarget Listing.auditLog.path
        (getAuditLog offset limit action search)) =
      .user (.listAuditLog (some (⟨action.map AuditAction.value, sought search⟩, offset.toNat,
        limit.toNat)))) ∧
    Listing.items.route parser lossy (requestTarget Listing.items.path
        (getItems offset limit).query) =
      .item (.listItems (some (offset.toNat, limit.toNat))) := by
  unfold Listing.route
  refine ⟨fun role isActive => ?_, fun action => ?_, ?_⟩
  · simp only [received_query,
      listUsersParams_eq hoffset hlow hhigh hlength hbool role isActive]
  · simp only [received_query, listAuditLogParams_eq hoffset hlow hhigh hlength action]
  · simp only [received_query, listItemsParams_eq hoffset hlow hhigh]

/-- Looked for among the free users. -/
def trickySearch : JsString :=
  "a&role=admin#".toList.map fun c => ⟨c.toNat % 0x10000, Nat.mod_lt _ (by decide)⟩

theorem tricky_search_arrives :
    Listing.users.route plainParser (fun _ => "") (requestTarget Listing.users.path
        (getAdminUsers 40 20 (some trickySearch) (some .free) none).query) =
      .user (.listUsers (some (⟨some .free, none, some "a&role=admin#"⟩, 40, 20))) := by
  have h := listings_arrive plainParser (by decide) (fun _ => "") 40 20 (by decide) (by decide)
    (by decide) (some trickySearch) (by decide)
  exact h.1 (some .free) none

end IsolatedEnv.Frontend
