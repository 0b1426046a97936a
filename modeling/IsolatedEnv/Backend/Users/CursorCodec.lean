import IsolatedEnv.Backend.Users.Listing

/-!
# Cursors of any time

The text of a cursor for a time with any offset.  The driver hands times out in UTC, and
for those the text is that of `encodeCursor`.
-/

namespace IsolatedEnv.Backend

open IsolatedEnv.Foundation

/-- The service reads the instant and the identifier. -/
def ReadsAs (cursor : String) (instant : Int) (id : Uuid) : Prop :=
  ∃ civil offset, readCursor cursor = .ok (some (civil, some offset), some id) ∧
    (DateTime.mk civil offset).instant = instant

/-- Letters and digits of ASCII, and then `=`. -/
def UrlSafe (cursor : String) : Prop :=
  ∃ body pads, cursor.toList = body ++ List.replicate pads '=' ∧
    ∀ c ∈ body, c.isAlphanum = true

/-! ## The payload -/

section Payload

variable {createdAt : DateTime} {id : Uuid}

theorem dumps_cursor :
    JsonText.dumps [("c", String.ofList (isoFormat createdAt)), ("i", id.str)] =
      "\x7b\"c\": \"".toList ++ isoFormat createdAt ++ "\", \"i\": \"".toList ++ id.text ++
        "\"\x7d".toList := by
  have hc : JsonText.dumpsText "c" = "\"c\"".toList := by decide
  have hi : JsonText.dumpsText "i" = "\"i\"".toList := by decide
  obtain ⟨htime, hid⟩ := cursor_plain createdAt id
  have hidText : id.str.toList = id.text := String.toList_ofList
  simp [JsonText.dumps, JsonText.dumpsMembers, JsonText.dumpsMember, hc, hi,
    JsonText.dumpsText_plain htime, JsonText.dumpsText_plain hid, hidText]

theorem isCursorChar_of_mem_dumps {c : Char}
    (h : c ∈ JsonText.dumps
      [("c", String.ofList (isoFormat createdAt)), ("i", id.str)]) :
    c.toNat < 128 ∧ c.toNat % 64 < 62 := by
  have hchar (hc : isCursorChar c = true) : c.toNat < 128 ∧ c.toNat % 64 < 62 := by
    simp only [isCursorChar, Bool.and_eq_true, JsonText.isPlain_iff, decide_eq_true_eq] at hc
    omega
  have hmarks : ("\x7b\"c\": \"".toList ++ "\", \"i\": \"".toList ++ "\"\x7d".toList).all
      (fun c => c.toNat < 128 && c.toNat % 64 < 62) = true := by decide
  have hmark (hc : c ∈ "\x7b\"c\": \"".toList ++ "\", \"i\": \"".toList ++
      "\"\x7d".toList) : c.toNat < 128 ∧ c.toNat % 64 < 62 := by
    simpa using List.all_eq_true.mp hmarks c hc
  rw [dumps_cursor] at h
  simp only [List.mem_append] at h hmark
  rcases h with (((h | h) | h) | h) | h
  · exact hmark (.inl (.inl h))
  · exact hchar (isCursorChar_of_mem_isoFormat h)
  · exact hmark (.inl (.inr h))
  · exact hchar (isCursorChar_of_mem_uuid h)
  · exact hmark (.inr h)

theorem isoFormat_length_le (d : DateTime) : (isoFormat d).length ≤ 42 := by
  have hfraction (us : Nat) : (fractionText us).length ≤ 7 := by
    unfold fractionText
    split <;> simp
  have hseconds (n : Nat) : (if n % 60000000 = 0 then []
      else ':' :: (padDigits 10 2 (n / 1000000 % 60) ++ fractionText (n % 1000000))).length ≤
        10 := by
    have hlast := hfraction (n % 1000000)
    split
    · simp
    · simp only [List.length_cons, List.length_append, padDigits_length]
      omega
  have hoffset : (offsetText d.offset).length ≤ 16 := by
    have hlast := hseconds d.offset.microseconds.natAbs
    simp only [offsetText, List.length_cons, List.length_append, padDigits_length]
    omega
  have htime := hfraction d.civil.microsecond
  simp only [isoFormat, dateText, timeText, List.length_append, List.length_cons,
    padDigits_length]
  omega

theorem nextCursor_urlSafe (createdAt : DateTime) (id : Uuid) :
    UrlSafe (nextCursor createdAt id) := by
  have hbytes : ∀ b ∈ asciiBytes (JsonText.dumps
      [("c", String.ofList (isoFormat createdAt)), ("i", id.str)]),
      b.val < 128 ∧ b.val % 64 < 62 := by
    intro b hb
    obtain ⟨c, hc, rfl⟩ := List.mem_map.mp hb
    have hchar := isCursorChar_of_mem_dumps hc
    rw [Fin.val_ofNat, Nat.mod_eq_of_lt (by omega)]
    exact hchar
  obtain ⟨body, pads, heq, hbody⟩ := Base64.encode_alphanum hbytes
  exact ⟨body, pads, by rw [nextCursor, String.toList_ofList, heq], hbody⟩

theorem nextCursor_length_le (createdAt : DateTime) (id : Uuid) :
    (nextCursor createdAt id).length ≤ 128 := by
  have htime := isoFormat_length_le createdAt
  rw [nextCursor, String.length_ofList, Base64.encode_length, asciiBytes, List.length_map,
    dumps_cursor]
  have hmarks : "\x7b\"c\": \"".toList.length = 7 ∧ "\", \"i\": \"".toList.length = 9 ∧
      "\"\x7d".toList.length = 2 := by decide
  simp only [List.length_append, Uuid.text_length, hmarks.1, hmarks.2.1, hmarks.2.2]
  omega

/-! ## What a cursor is read as -/

theorem readsAs_iff (createdAt : DateTime) (id : Uuid) :
    ReadsAs (nextCursor createdAt id) createdAt.instant id ↔ createdAt.offset.Readable := by
  rw [ReadsAs, ← UtcOffset.readBack_eq_iff]
  constructor
  · rintro ⟨civil, offset, hread, hinstant⟩
    rw [readCursor_nextCursor] at hread
    simp only [Except.ok.injEq, Prod.mk.injEq, Option.some.injEq] at hread
    obtain ⟨⟨rfl, rfl⟩, -⟩ := hread
    have hsame : createdAt.offset.readBack.microseconds = createdAt.offset.microseconds := by
      simp only [DateTime.instant] at hinstant
      omega
    exact UtcOffset.microseconds_injective hsame
  · intro hread
    refine ⟨_, _, readCursor_nextCursor createdAt id, ?_⟩
    rw [hread]

end Payload

/--
Every identifier survives, and every offset but one of less than a second; every text
survives a URL.
-/
theorem cursor_round_trip_iff (createdAt : DateTime) (id : Uuid) :
    (∃ time, readCursor (nextCursor createdAt id) = .ok (some time, some id)) ∧
      (ReadsAs (nextCursor createdAt id) createdAt.instant id ↔
        createdAt.offset.Readable) ∧
      UrlSafe (nextCursor createdAt id) ∧ (nextCursor createdAt id).length ≤ 500 :=
  ⟨⟨_, readCursor_nextCursor createdAt id⟩, readsAs_iff createdAt id,
    nextCursor_urlSafe createdAt id,
    (nextCursor_length_le createdAt id).trans (by decide)⟩

def halfSecondAhead : DateTime :=
  ⟨⟨2025, 2, 3, 4, 5, 6, 0, by decide⟩, ⟨500000, by decide⟩⟩

theorem half_second_is_lost :
    readCursor (nextCursor halfSecondAhead 1) =
        .ok (some (halfSecondAhead.civil, some .utc), some 1) ∧
      ¬ ∀ createdAt id, ReadsAs (nextCursor createdAt id) createdAt.instant id := by
  refine ⟨readCursor_nextCursor halfSecondAhead 1, fun h => ?_⟩
  exact absurd ((readsAs_iff halfSecondAhead 1).mp (h halfSecondAhead 1))
    (by unfold UtcOffset.Readable; decide)

/-! ## The cursors of the service -/

theorem emitted_cursor {env : Env} {t : UsersTable} {filter : UserFilter}
    {cursor : Option String} {limit : Nat} {users : List User} {next : String}
    (h : UserService.listUsersCursor env t filter cursor limit = .ok (users, some next)) :
    ∃ last ∈ users, next = nextCursor last.createdAt.dateTime last.id ∧
      ReadsAs next last.createdAt.dateTime.instant last.id := by
  unfold UserService.listUsersCursor at h
  obtain ⟨⟨createdAt, id⟩, -, h⟩ := bind_eq_ok.mp h
  obtain ⟨shown, -, h⟩ := bind_eq_ok.mp h
  simp only [Except.ok.injEq, Prod.mk.injEq] at h
  obtain ⟨rfl, hnext⟩ := h
  split at hnext
  · rename_i hmore
    obtain ⟨last, hlast, rfl⟩ := Option.map_eq_some_iff.mp hnext
    rw [if_pos hmore]
    exact ⟨last, List.mem_of_getLast? hlast, rfl,
      (readsAs_iff last.createdAt.dateTime last.id).mpr (.inl rfl)⟩
  · cases hnext

end IsolatedEnv.Backend
