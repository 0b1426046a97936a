import IsolatedEnv.Backend.Users.Repository
import IsolatedEnv.Foundation.Base64
import IsolatedEnv.Foundation.IsoFormat
import IsolatedEnv.Foundation.JsonTree
import IsolatedEnv.Foundation.Keyset
import Mathlib.Data.Prod.Lex

/-!
# Listing users page by page

The queries of the two listings, the cursor text and
`UserService.list_users_cursor`.  The database compares `(created_at, id)` as a
row, identifiers by their bytes.  A cursor without time zone, or one outside the
range of dates in UTC, makes the driver raise, and so does a search text with a
zero character.
-/

namespace IsolatedEnv.Backend

open IsolatedEnv.Foundation

/-! ## The query -/

structure UserFilter where
  role : Option UserRole
  isActive : Option Bool
  search : Option String
  deriving DecidableEq

/-- `UserRepository._apply_filters`. -/
def UserFilter.matches (env : Env) (filter : UserFilter) (u : User) : Bool :=
  (filter.role.all fun role => u.role = role) &&
    (filter.isActive.all fun isActive => u.isActive = isActive) &&
    filter.search.all fun search =>
      search = "" || ilike env u.email (searchPattern search) ||
        ilike env u.name (searchPattern search)

/-- The texts that the clauses of a filter send along. -/
def UserFilter.texts (filter : UserFilter) : List String := filter.search.toList

abbrev UserKey := Int ×ₗ Uuid

def userKey (u : User) : UserKey :=
  toLex (u.createdAt.dateTime.instant, u.id)

/-- What `datetime.fromisoformat` gives. -/
abbrev ParsedTime := Civil × Option UtcOffset

/-- A parameter for a column with time zone, as the driver sends it. -/
def sendTime : ParsedTime → Except Exc Int
  | (_, none) => .error .sqlalchemy
  | (civil, some offset) =>
      let n := (DateTime.mk civil offset).instant
      if microsecondsPerDay ≤ n ∧ n < 3652060 * microsecondsPerDay then .ok n
      else .error .sqlalchemy

/-- What the rows are compared with, if both parts of the cursor are there. -/
def sendPosition : Option ParsedTime → Option Uuid → Except Exc (Option UserKey)
  | some createdAt, some id => (sendTime createdAt).map fun n => some (toLex (n, id))
  | _, _ => .ok none

def UsersTable.listUsers (env : Env) (t : UsersTable) (filter : UserFilter)
    (offset limit : Nat) (rank : Uuid → Nat) : Except Exc (List User) :=
  select filter.texts [offset, limit]
    (((newestFirst User.createdAt (fun u => rank u.id)
      (t.rows.filter (filter.matches env))).drop offset).take limit)

def UsersTable.countUsers (env : Env) (t : UsersTable) (filter : UserFilter) :
    Except Exc Nat :=
  select filter.texts [] (t.rows.filter (filter.matches env)).length

def UsersTable.listUsersCursor (env : Env) (t : UsersTable) (filter : UserFilter)
    (cursorCreatedAt : Option ParsedTime) (cursorId : Option Uuid)
    (limit : Nat) : Except Exc (List User) := do
  let after ← sendPosition cursorCreatedAt cursorId
  select filter.texts [limit] (Keyset.fetch userKey (filter.matches env) after limit t.rows)

/-! ## The cursor text -/

/-- The text for a time with any offset. -/
def nextCursor (createdAt : DateTime) (id : Uuid) : String :=
  String.ofList (Base64.encode (asciiBytes (JsonText.dumps
    [("c", String.ofList (isoFormat createdAt)), ("i", id.str)])))

def encodeCursor (last : User) : String := nextCursor last.createdAt.dateTime last.id

def decodePayload (cursor : String) : Except Exc Json :=
  match (Base64.decodeText cursor.toList).bind (JsonText.loads argumentText) with
  | some decoded => .ok decoded
  | none => .error .value

def decodeCreatedAt (decoded : Json) : Except Exc ParsedTime := do
  match ← pyItem decoded "c" with
  | .str text =>
      match fromIsoFormat text.toList with
      | some createdAt => .ok createdAt
      | none => .error .value
  | _ => .error .type

def decodeId (decoded : Json) : Except Exc Uuid := do
  match ← pyItem decoded "i" with
  | .str text =>
      match Uuid.parse text.toList with
      | some id => .ok id
      | none => .error .value
  | .null => .error .type
  | _ => .error .attribute

/--
The `try` block of the service: what was assigned before an exception that it
swallows stays assigned.
-/
def readCursor (cursor : String) :
    Except Exc (Option ParsedTime × Option Uuid) :=
  let decoded := decodePayload cursor
  let createdAt := decoded >>= decodeCreatedAt
  match createdAt, decoded >>= decodeId with
  | .ok createdAt, .ok id => .ok (some createdAt, some id)
  | .ok createdAt, .error .value | .ok createdAt, .error .key =>
      .ok (some createdAt, none)
  | .error .value, _ | .error .key, _ => .ok (none, none)
  | .ok _, .error e | .error e, _ => .error e

def cursorArguments : Option String → Except Exc (Option ParsedTime × Option Uuid)
  | none => .ok (none, none)
  | some cursor => if cursor = "" then .ok (none, none) else readCursor cursor

/-! ## The service -/

structure UserListResponse where
  users : List UserResponse
  total : Nat
  offset : Nat
  limit : Nat

def UserService.listUsers (env : Env) (t : UsersTable) (filter : UserFilter)
    (offset limit : Nat) (rank : Uuid → Nat) : Except Exc UserListResponse := do
  let users ← t.listUsers env filter offset limit rank
  let total ← t.countUsers env filter
  .ok ⟨users.map User.response, total, offset, limit⟩

def UserService.listUsersCursor (env : Env) (t : UsersTable) (filter : UserFilter)
    (cursor : Option String) (limit : Nat) :
    Except Exc (List User × Option String) := do
  let (cursorCreatedAt, cursorId) ← cursorArguments cursor
  let users ← t.listUsersCursor env filter cursorCreatedAt cursorId (limit + 1)
  let hasMore := limit < users.length
  let users := if hasMore then users.take limit else users
  let nextCursor := if hasMore then users.getLast?.map encodeCursor else none
  .ok (users, nextCursor)

/-! ## A cursor is read back -/

/-- It needs no escape in JSON and no `+` or `/` in base64. -/
def isCursorChar (c : Char) : Bool := JsonText.isPlain c && c.toNat % 64 < 62

section Characters

variable {c : Char} {d : DateTime} {id : Uuid}

theorem isCursorChar_digitChar {n : Nat} (hn : n < 16) : isCursorChar n.digitChar = true := by
  have hall : ∀ n < 16, isCursorChar n.digitChar = true := by decide
  exact hall n hn

theorem isCursorChar_of_mem_isoFormat (h : c ∈ isoFormat d) : isCursorChar c = true := by
  rcases isIsoChar_cases (isIsoChar_of_mem_isoFormat h) with hdigit | hmark
  · have hplain : JsonText.isPlain c = true := by
      refine JsonText.isPlain_iff.mpr ⟨by omega, by omega, ?_, ?_⟩ <;> rintro rfl
      · exact absurd hdigit (by decide)
      · exact absurd hdigit (by decide)
    simp only [isCursorChar, hplain, Bool.true_and, decide_eq_true_eq]
    omega
  · revert hmark
    simp only [List.mem_cons, List.not_mem_nil, or_false]
    rintro (rfl | rfl | rfl | rfl | rfl) <;> decide

theorem isCursorChar_of_mem_uuid (h : c ∈ id.text) : isCursorChar c = true := by
  rcases Uuid.mem_text h with rfl | ⟨d, hd, rfl⟩
  · decide
  · exact isCursorChar_digitChar hd

end Characters

theorem plain_of_cursorChars {cs : List Char} (h : ∀ c ∈ cs, isCursorChar c = true) :
    JsonText.Plain (String.ofList cs) := by
  intro c hc
  have hchar := h c (by simpa using hc)
  rw [isCursorChar, Bool.and_eq_true] at hchar
  exact hchar.1

theorem cursor_plain (createdAt : DateTime) (id : Uuid) :
    JsonText.Plain (String.ofList (isoFormat createdAt)) ∧ JsonText.Plain id.str :=
  ⟨plain_of_cursorChars fun _ => isCursorChar_of_mem_isoFormat,
    plain_of_cursorChars fun _ => isCursorChar_of_mem_uuid⟩

theorem readCursor_nextCursor (createdAt : DateTime) (id : Uuid) :
    readCursor (nextCursor createdAt id) =
      .ok (some (createdAt.civil, some createdAt.offset.readBack), some id) := by
  have hpayload : decodePayload (nextCursor createdAt id) = .ok (.obj
      [("c", .str (String.ofList (isoFormat createdAt))), ("i", .str id.str)]) := by
    obtain ⟨htime, hid⟩ := cursor_plain createdAt id
    have hnames : JsonText.Plain "c" ∧ JsonText.Plain "i" := by
      simp [JsonText.Plain, JsonText.isPlain]
    have hplain : ∀ m ∈ [("c", String.ofList (isoFormat createdAt)), ("i", id.str)],
        JsonText.Plain m.1 ∧ JsonText.Plain m.2 := by
      simp [hnames, htime, hid]
    have hloads := JsonText.loads_dumps argumentText_toNat hplain
    rw [decodePayload, nextCursor, String.toList_ofList, Base64.decodeText_encode,
      Option.bind_some, hloads]
    rfl
  have htime : decodeCreatedAt (.obj
      [("c", .str (String.ofList (isoFormat createdAt))), ("i", .str id.str)]) =
        .ok (createdAt.civil, some createdAt.offset.readBack) := by
    simp [decodeCreatedAt, pyItem, JsonObject.get?, bind, Except.bind,
      fromIsoFormat_isoFormat_readBack]
  have hid : decodeId (.obj
      [("c", .str (String.ofList (isoFormat createdAt))), ("i", .str id.str)]) = .ok id := by
    simp [decodeId, pyItem, JsonObject.get?, bind, Except.bind, Uuid.str]
  rw [readCursor, hpayload]
  simp only [bind, Except.bind, htime, hid]

theorem readCursor_encodeCursor (u : User) :
    readCursor (encodeCursor u) =
      .ok (some (u.createdAt, some .utc), some u.id) :=
  readCursor_nextCursor u.createdAt.dateTime u.id

theorem encodeCursor_ne_empty (u : User) : encodeCursor u ≠ "" := by
  intro h
  have hread := readCursor_encodeCursor u
  rw [h] at hread
  have hempty : readCursor "" = .ok (none, none) := by decide +kernel
  rw [hempty] at hread
  simp at hread

theorem sendTime_utc (t : Timestamp) :
    sendTime (t, some .utc) = .ok t.dateTime.instant := by
  have hpos := t.ordinal_pos
  have hle := t.ordinal_le
  obtain ⟨-, -, -, -, -, -, hhour, hminute, hsecond, hmicrosecond⟩ := t.valid
  have hinstant : t.dateTime.instant = t.microseconds := t.dateTime_instant
  have hdate : (DateTime.mk t .utc).instant = t.microseconds := hinstant
  rw [sendTime, hdate, if_pos, hinstant]
  simp only [Civil.microseconds, microsecondsPerDay]
  omega

theorem cursorArguments_encodeCursor (after : Option User) :
    cursorArguments (after.map encodeCursor) =
      .ok (after.map fun u => (u.createdAt, some .utc), after.map User.id) := by
  cases after with
  | none => rfl
  | some u =>
      rw [Option.map_some, cursorArguments, if_neg (encodeCursor_ne_empty u),
        readCursor_encodeCursor]
      rfl

theorem listUsersCursor_eq_fetch (env : Env) (t : UsersTable) (filter : UserFilter)
    (after : Option User) (limit : Nat) :
    t.listUsersCursor env filter (after.map fun u => (u.createdAt, some .utc))
      (after.map User.id) limit =
      select filter.texts [limit]
        (Keyset.fetch userKey (filter.matches env) (after.map userKey) limit t.rows) := by
  cases after with
  | none => rfl
  | some u =>
      simp only [UsersTable.listUsersCursor, sendPosition, Option.map_some, sendTime_utc]
      rfl

end IsolatedEnv.Backend
