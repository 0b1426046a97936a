import IsolatedEnv.Backend.Users.Pagination

/-!
# Cursor texts of a client's own making

The service takes any text as a cursor.  Its `except` clause names `ValueError`,
`KeyError` and `binascii.Error`, so that a text which is no base64, no JSON or
lacks a member lists from the start.  What else the parsing may raise, and a
time the driver does not send, gets past it.  A search text that PostgreSQL does not
take fails with any cursor.
-/

namespace IsolatedEnv.Backend

open IsolatedEnv.Foundation

/-! ## What a payload says -/

def TimeMember (members : JsonObject) (createdAt : ParsedTime) : Prop :=
  ∃ text, JsonObject.get? members "c" = some (.str text) ∧
    fromIsoFormat text.toList = some createdAt

def IdMember (members : JsonObject) (id : Uuid) : Prop :=
  ∃ text, JsonObject.get? members "i" = some (.str text) ∧
    Uuid.parse text.toList = some id

/-- The name is bound to something other than a text. -/
def WrongType (members : JsonObject) (name : String) : Prop :=
  ∃ value, JsonObject.get? members name = some value ∧ value.text? = none

/-- From the first to the last microsecond a `datetime` in UTC can be. -/
def InUtcRange (n : Int) : Prop :=
  microsecondsPerDay ≤ n ∧ n < 3652060 * microsecondsPerDay

/-- The payloads at which an exception leaves the service. -/
inductive Uncaught : Json → Prop where
  | notObject {decoded : Json} (h : ∀ members, decoded ≠ .obj members) :
      Uncaught decoded
  | timeType {members : JsonObject} (h : WrongType members "c") :
      Uncaught (.obj members)
  | idType {members : JsonObject} {createdAt : ParsedTime}
      (htime : TimeMember members createdAt) (h : WrongType members "i") :
      Uncaught (.obj members)
  | naive {members : JsonObject} {civil : Civil} {id : Uuid}
      (htime : TimeMember members (civil, none)) (hid : IdMember members id) :
      Uncaught (.obj members)
  | outOfRange {members : JsonObject} {civil : Civil} {offset : UtcOffset}
      {id : Uuid} (htime : TimeMember members (civil, some offset))
      (hid : IdMember members id)
      (h : ¬InUtcRange (DateTime.mk civil offset).instant) :
      Uncaught (.obj members)

/-- The cursor text denotes a position in the order of the listing. -/
def Denotes (cursor : String) (position : UserKey) : Prop :=
  ∃ members civil offset id, decodePayload cursor = .ok (.obj members) ∧
    TimeMember members (civil, some offset) ∧ IdMember members id ∧
    position = toLex ((DateTime.mk civil offset).instant, id)

/-- The page below the position that the cursor denotes, or the first page. -/
def Answered (env : Env) (t : UsersTable) (filter : UserFilter) (cursor : String)
    (limit : Nat) : Prop :=
  ∃ page, UserService.listUsersCursor env t filter (some cursor) limit = .ok page ∧
    (UserService.listUsersCursor env t filter none limit = .ok page ∨
      ∃ position, Denotes cursor position ∧
        page = cursorPage (Keyset.page userKey (filter.matches env) limit
          (some position) t.rows))

/-! ## Reading the members -/

section Members

variable {members : JsonObject} {createdAt : ParsedTime} {id : Uuid}

theorem decodeCreatedAt_ok (h : TimeMember members createdAt) :
    decodeCreatedAt (.obj members) = .ok createdAt := by
  obtain ⟨text, hmember, hiso⟩ := h
  simp [decodeCreatedAt, pyItem, hmember, bind, Except.bind, hiso]

theorem decodeId_ok (h : IdMember members id) :
    decodeId (.obj members) = .ok id := by
  obtain ⟨text, hmember, hparse⟩ := h
  simp [decodeId, pyItem, hmember, bind, Except.bind, hparse]

theorem decodeCreatedAt_wrongType (h : WrongType members "c") :
    decodeCreatedAt (.obj members) = .error .type := by
  obtain ⟨value, hmember, htext⟩ := h
  cases value with
  | str text => simp [Json.text?] at htext
  | _ => simp [decodeCreatedAt, pyItem, hmember, bind, Except.bind]

theorem decodeId_wrongType (h : WrongType members "i") :
    decodeId (.obj members) = .error .type ∨
      decodeId (.obj members) = .error .attribute := by
  obtain ⟨value, hmember, htext⟩ := h
  cases value with
  | str text => simp [Json.text?] at htext
  | _ => simp [decodeId, pyItem, hmember, bind, Except.bind]

theorem decodeCreatedAt_cases (members : JsonObject) :
    (∃ createdAt, TimeMember members createdAt) ∨ WrongType members "c" ∨
      decodeCreatedAt (.obj members) = .error .key ∨
      decodeCreatedAt (.obj members) = .error .value := by
  cases hmember : JsonObject.get? members "c" with
  | none => simp [decodeCreatedAt, pyItem, hmember, bind, Except.bind]
  | some value =>
      cases value with
      | str text =>
          cases hiso : fromIsoFormat text.toList with
          | none =>
              simp [decodeCreatedAt, pyItem, hmember, bind, Except.bind, hiso]
          | some createdAt => exact .inl ⟨createdAt, text, hmember, hiso⟩
      | _ => exact .inr (.inl ⟨_, hmember, rfl⟩)

theorem decodeId_cases (members : JsonObject) :
    (∃ id, IdMember members id) ∨ WrongType members "i" ∨
      decodeId (.obj members) = .error .key ∨
      decodeId (.obj members) = .error .value := by
  cases hmember : JsonObject.get? members "i" with
  | none => simp [decodeId, pyItem, hmember, bind, Except.bind]
  | some value =>
      cases value with
      | str text =>
          cases hparse : Uuid.parse text.toList with
          | none => simp [decodeId, pyItem, hmember, bind, Except.bind, hparse]
          | some id => exact .inl ⟨id, text, hmember, hparse⟩
      | _ => exact .inr (.inl ⟨_, hmember, rfl⟩)

theorem sendTime_error_iff {civil : Civil} {offset : UtcOffset} :
    (∃ e, sendTime (civil, some offset) = .error e) ↔
      ¬InUtcRange (DateTime.mk civil offset).instant := by
  unfold sendTime InUtcRange
  dsimp only
  split <;> simp_all

theorem sendTime_ok {civil : Civil} {offset : UtcOffset}
    (h : InUtcRange (DateTime.mk civil offset).instant) :
    sendTime (civil, some offset) = .ok (DateTime.mk civil offset).instant :=
  if_pos h

end Members

/-! ## The service on a cursor text -/

section Service

variable {env : Env} {t : UsersTable} {filter : UserFilter} {cursor : String}
  {limit : Nat}

theorem decodePayload_empty : decodePayload "" = .error .value := by
  have hnone : ((Base64.decodeText "".toList).bind (JsonText.loads argumentText)).isNone = true := by
    decide +kernel
  rw [decodePayload, Option.isNone_iff_eq_none.mp hnone]

theorem cursorArguments_some (cursor : String) :
    cursorArguments (some cursor) = readCursor cursor := by
  by_cases hempty : cursor = ""
  · subst hempty
    rw [cursorArguments, if_pos rfl, readCursor, decodePayload_empty]
    rfl
  · rw [cursorArguments, if_neg hempty]

theorem takes_of_answered (h : Answered env t filter cursor limit) :
    Takes filter.texts [limit + 1] := by
  obtain ⟨page, hpage, -⟩ := h
  unfold UserService.listUsersCursor at hpage
  obtain ⟨⟨createdAt, id⟩, -, hanswer⟩ := bind_eq_ok.mp hpage
  obtain ⟨users, husers, -⟩ := bind_eq_ok.mp hanswer
  unfold UsersTable.listUsersCursor at husers
  obtain ⟨after, -, hselect⟩ := bind_eq_ok.mp husers
  exact (select_eq_ok.mp hselect).1

/-- Without a position the listing starts with the newest row. -/
theorem answered_of_start {createdAt : Option ParsedTime}
    (htakes : Takes filter.texts [limit + 1]) (h : readCursor cursor = .ok (createdAt, none)) :
    Answered env t filter cursor limit := by
  have hfirst := listUsersCursor_eq_page env filter limit t none
  have hsame : UserService.listUsersCursor env t filter (some cursor) limit =
      UserService.listUsersCursor env t filter none limit := by
    unfold UserService.listUsersCursor
    rw [cursorArguments_some, h]
    cases createdAt <;> rfl
  rw [Option.map_none, Option.map_none, select_of_takes htakes] at hfirst
  exact ⟨_, hsame.trans hfirst, .inl hfirst⟩

theorem listUsersCursor_position {createdAt : ParsedTime} {id : Uuid} {n : Int}
    (htakes : Takes filter.texts [limit + 1])
    (h : readCursor cursor = .ok (some createdAt, some id))
    (hsend : sendTime createdAt = .ok n) :
    UserService.listUsersCursor env t filter (some cursor) limit =
      .ok (cursorPage (Keyset.page userKey (filter.matches env) limit
        (some (toLex (n, id))) t.rows)) := by
  unfold UserService.listUsersCursor UsersTable.listUsersCursor sendPosition
  rw [cursorArguments_some, h]
  simp only [bind, Except.bind, hsend, Except.map, select_of_takes htakes, Except.ok.injEq]
  unfold cursorPage Keyset.page
  dsimp only
  split <;> rfl

theorem not_answered_of_read {e : Exc} (h : readCursor cursor = .error e) :
    ¬Answered env t filter cursor limit := by
  rintro ⟨page, hpage, -⟩
  rw [UserService.listUsersCursor, cursorArguments_some, h] at hpage
  cases hpage

theorem not_answered_of_send {createdAt : ParsedTime} {id : Uuid} {e : Exc}
    (h : readCursor cursor = .ok (some createdAt, some id))
    (hsend : sendTime createdAt = .error e) :
    ¬Answered env t filter cursor limit := by
  rintro ⟨page, hpage, -⟩
  unfold UserService.listUsersCursor UsersTable.listUsersCursor sendPosition at hpage
  rw [cursorArguments_some, h] at hpage
  simp only [bind, Except.bind, hsend, Except.map] at hpage
  cases hpage

theorem readCursor_obj {members : JsonObject}
    (h : decodePayload cursor = .ok (.obj members)) :
    readCursor cursor =
      match decodeCreatedAt (.obj members), decodeId (.obj members) with
      | .ok createdAt, .ok id => .ok (some createdAt, some id)
      | .ok createdAt, .error .value | .ok createdAt, .error .key =>
          .ok (some createdAt, none)
      | .error .value, _ | .error .key, _ => .ok (none, none)
      | .ok _, .error e | .error e, _ => .error e := by
  unfold readCursor
  rw [h]
  rfl

theorem not_answered_of_uncaught {decoded : Json}
    (hdecoded : decodePayload cursor = .ok decoded) (h : Uncaught decoded) :
    ¬Answered env t filter cursor limit := by
  cases h with
  | notObject hobject =>
      have hread : readCursor cursor = .error .type := by
        unfold readCursor
        rw [hdecoded]
        cases decoded with
        | obj members => exact absurd rfl (hobject members)
        | _ => rfl
      exact not_answered_of_read hread
  | timeType htype =>
      apply not_answered_of_read (e := .type)
      rw [readCursor_obj hdecoded, decodeCreatedAt_wrongType htype]
  | idType htime htype =>
      rcases decodeId_wrongType htype with hid | hid
      · apply not_answered_of_read (e := .type)
        rw [readCursor_obj hdecoded, decodeCreatedAt_ok htime, hid]
      · apply not_answered_of_read (e := .attribute)
        rw [readCursor_obj hdecoded, decodeCreatedAt_ok htime, hid]
  | naive htime hid =>
      have hread := readCursor_obj hdecoded
      rw [decodeCreatedAt_ok htime, decodeId_ok hid] at hread
      exact not_answered_of_send hread rfl
  | outOfRange htime hid hrange =>
      have hread := readCursor_obj hdecoded
      rw [decodeCreatedAt_ok htime, decodeId_ok hid] at hread
      obtain ⟨e, hsend⟩ := sendTime_error_iff.mpr hrange
      exact not_answered_of_send hread hsend

theorem answered_of_obj {members : JsonObject} (htakes : Takes filter.texts [limit + 1])
    (hdecoded : decodePayload cursor = .ok (.obj members))
    (h : ¬Uncaught (.obj members)) : Answered env t filter cursor limit := by
  have hread := readCursor_obj hdecoded
  rcases decodeCreatedAt_cases members with ⟨createdAt, htime⟩ | htype | htime | htime
  · rw [decodeCreatedAt_ok htime] at hread
    rcases decodeId_cases members with ⟨id, hid⟩ | htype | hid | hid
    · rw [decodeId_ok hid] at hread
      obtain ⟨civil, _ | offset⟩ := createdAt
      · exact absurd (.naive htime hid) h
      · have hrange : InUtcRange (DateTime.mk civil offset).instant := by
          by_contra hrange
          exact h (.outOfRange htime hid hrange)
        exact ⟨_, listUsersCursor_position htakes hread (sendTime_ok hrange),
          .inr ⟨_, ⟨members, civil, offset, id, hdecoded, htime, hid, rfl⟩, rfl⟩⟩
    · exact absurd (.idType htime htype) h
    · rw [hid] at hread
      exact answered_of_start htakes hread
    · rw [hid] at hread
      exact answered_of_start htakes hread
  · exact absurd (.timeType htype) h
  · rw [htime] at hread
    exact answered_of_start htakes hread
  · rw [htime] at hread
    exact answered_of_start htakes hread

theorem answered_of_undecoded {e : Exc} (htakes : Takes filter.texts [limit + 1])
    (h : decodePayload cursor = .error e) : Answered env t filter cursor limit := by
  have hvalue : decodePayload cursor = .error .value := by
    unfold decodePayload at h ⊢
    split at h <;> simp_all
  have hread : readCursor cursor = .ok (none, none) := by
    unfold readCursor
    rw [hvalue]
    rfl
  exact answered_of_start htakes hread

end Service

/-- The listing answers every cursor text but those whose payload escapes. -/
theorem list_users_cursor_answers_iff (env : Env) (t : UsersTable)
    (filter : UserFilter) (cursor : String) (limit : Nat) :
    Answered env t filter cursor limit ↔
      Takes filter.texts [limit + 1] ∧
        ∀ decoded, decodePayload cursor = .ok decoded → ¬Uncaught decoded := by
  constructor
  · intro hanswered
    refine ⟨takes_of_answered hanswered, fun decoded hdecoded huncaught => ?_⟩
    exact not_answered_of_uncaught hdecoded huncaught hanswered
  · rintro ⟨htakes, h⟩
    cases hdecoded : decodePayload cursor with
    | error e => exact answered_of_undecoded htakes hdecoded
    | ok decoded =>
        by_cases hobject : ∃ members, decoded = .obj members
        · obtain ⟨members, rfl⟩ := hobject
          exact answered_of_obj htakes hdecoded (h _ hdecoded)
        · exact absurd (.notObject fun members heq => hobject ⟨members, heq⟩)
            (h _ hdecoded)

/-- `W10=` is `[]` in base64. -/
theorem list_cursor_is_not_answered :
    ¬∀ cursor, Answered exampleEnv createdTogether everyone cursor 20 := by
  intro hall
  obtain ⟨page, hpage, -⟩ := hall "W10="
  have hread : readCursor "W10=" = .error .type := by decide +kernel
  rw [UserService.listUsersCursor, cursorArguments_some, hread] at hpage
  cases hpage

end IsolatedEnv.Backend
