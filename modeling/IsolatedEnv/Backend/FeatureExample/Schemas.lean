import IsolatedEnv.Backend.FeatureExample.Items
import IsolatedEnv.Backend.Users.RoleChange

/-!
# Validation of items, and partial updates

The bodies have been read as JSON.  A field of type `str | None` is absent, null or a
text within its bounds; keys that the schema does not name are ignored.
-/

namespace IsolatedEnv.Backend

open IsolatedEnv.Foundation

abbrev TextField (low high : Nat) :=
  { field : Option (Option String) //
    ∀ text ∈ field.join, low ≤ text.length ∧ text.length ≤ high }

/-- `str | None` with `default=None`, `min_length` and `max_length`. -/
def textField (low high : Nat) : Option Json → Option (TextField low high)
  | none => some ⟨none, by simp⟩
  | some .null => some ⟨some none, by simp⟩
  | some (.str text) =>
      if h : low ≤ text.length ∧ text.length ≤ high then
        some ⟨some (some text), by simpa using h⟩
      else none
  | some _ => none

def ItemCreate.validate : Json → Option ItemCreate
  | .obj body =>
      match JsonObject.get? body "title" with
      | some (.str title) =>
          (textField 0 10000 (JsonObject.get? body "description")).bind fun description =>
            if h : 1 ≤ title.length ∧ title.length ≤ 255 then
              some ⟨title, description.1.join, h.1, h.2, by
                rcases htext : description.1.join with _ | text
                · simp
                · simpa using (description.2 text (by simp [htext])).2⟩
            else none
      | _ => none
  | _ => none

/-- The last check is `reject_empty_update`. -/
def ItemUpdate.validate : Json → Option ItemUpdate
  | .obj body =>
      (textField 1 255 (JsonObject.get? body "title")).bind fun title =>
        (textField 0 10000 (JsonObject.get? body "description")).bind fun description =>
          if h : title.1.join ≠ none ∨ description.1.join ≠ none then
            some ⟨title.1, description.1, title.2,
              fun text htext => (description.2 text htext).2, h⟩
          else none
  | _ => none

/-! ## What a field may hold -/

/-- A text within the bounds that the database can store. -/
def StorableText (low high : Nat) (v : Json) : Prop :=
  ∃ text, v = .str text ∧ low ≤ text.length ∧ text.length ≤ high ∧ storable text = true

def StorableTitle (v : Json) : Prop := StorableText 1 255 v

def StorableDescription (v : Json) : Prop := v = .null ∨ StorableText 0 10000 v

/-- At least one field is there, and those that are there hold storable values. -/
def Sets (body : JsonObject) : Prop :=
  (∀ v ∈ body.get? "title", StorableTitle v) ∧
    (∀ v ∈ body.get? "description", StorableDescription v) ∧
    (body.get? "title" ≠ none ∨ body.get? "description" ≠ none)

/-- The fields of the body are those of `row`, and nothing else of `item` has changed. -/
structure Patched (body : JsonObject) (item row : Item) : Prop where
  title : (body.get? "title").getD (.str item.title) = .str row.title
  description : (body.get? "description").getD (item.description.elim .null .str) =
    row.description.elim .null .str
  id : row.id = item.id
  ownerId : row.ownerId = item.ownerId
  createdAt : row.createdAt = item.createdAt

section TextField

variable {low high : Nat} {v : Option Json} {field : TextField low high}

theorem textField_value (h : textField low high v = some field) :
    v = field.1.map fun value => value.elim .null .str := by
  unfold textField at h
  split at h
  · cases h
    rfl
  · cases h
    rfl
  · split at h
    · cases h
      rfl
    · cases h
  · cases h

theorem textField_text {text : String} :
    (textField low high (some (.str text))).isSome ↔
      low ≤ text.length ∧ text.length ≤ high := by
  by_cases h : low ≤ text.length ∧ text.length ≤ high <;> simp [textField, h]

end TextField

theorem ItemCreate.validate_isSome {body : JsonObject} :
    (ItemCreate.validate (.obj body)).isSome ↔
      (∃ text, body.get? "title" = some (.str text) ∧ 1 ≤ text.length ∧ text.length ≤ 255) ∧
        (textField 0 10000 (body.get? "description")).isSome := by
  rw [ItemCreate.validate]
  split
  · rename_i text htext
    cases hdescription : textField 0 10000 (body.get? "description") <;>
      by_cases hlength : 1 ≤ text.length ∧ text.length ≤ 255 <;> simp [htext, hlength]
  · rename_i hnone
    simp only [Option.isSome_none, Bool.false_eq_true, false_iff, not_and]
    rintro ⟨text, htext, -⟩
    exact absurd htext (hnone text)

namespace ItemUpdate

variable {body : JsonObject} {data : ItemUpdate}

theorem validate_fields (h : validate (.obj body) = some data) :
    textField 1 255 (body.get? "title") = some ⟨data.title, data.titleValid⟩ ∧
      textField 0 10000 (body.get? "description") =
        some ⟨data.description, fun text htext =>
          ⟨Nat.zero_le _, data.descriptionValid text htext⟩⟩ := by
  simp only [validate, Option.bind_eq_some_iff] at h
  obtain ⟨title, htitle, description, hdescription, h⟩ := h
  split at h
  · cases h
    exact ⟨htitle, hdescription⟩
  · cases h

theorem validate_isSome : (validate (.obj body)).isSome ↔
    ∃ title description, textField 1 255 (body.get? "title") = some title ∧
      textField 0 10000 (body.get? "description") = some description ∧
      (title.1.join ≠ none ∨ description.1.join ≠ none) := by
  constructor
  · intro h
    obtain ⟨data, hdata⟩ := Option.isSome_iff_exists.mp h
    obtain ⟨htitle, hdescription⟩ := validate_fields hdata
    exact ⟨_, _, htitle, hdescription, data.notEmpty⟩
  · rintro ⟨title, description, htitle, hdescription, hnotEmpty⟩
    simp [validate, htitle, hdescription, hnotEmpty]

end ItemUpdate

/-! ## What an accepted body does to the item -/

namespace ItemRepository

variable {db db' : Database} {item row : Item} {data : ItemUpdate} {now : Timestamp}

theorem update_ok (hmem : item ∈ db.items) (h : update db item data now = .ok (row, db')) :
    data.title.getD (some item.title) = some row.title ∧
      row.description = data.description.getD item.description ∧
      (row.id = item.id ∧ row.ownerId = item.ownerId ∧ row.createdAt = item.createdAt) ∧
      db'.items = Rows.replace Item.id row db.items := by
  unfold update at h
  split at h
  · cases h
  · rename_i title htitle
    dsimp only at h
    split at h
    · rename_i hunchanged
      simp only [Except.ok.injEq, Prod.mk.injEq] at h
      obtain ⟨rfl, rfl⟩ := h
      have htitleSame := congrArg Item.title hunchanged
      have hdescription := congrArg Item.description hunchanged
      exact ⟨htitle.trans (congrArg some htitleSame), hdescription.symm, ⟨rfl, rfl, rfl⟩,
        (Rows.replace_self db.consistent.itemId hmem).symm⟩
    · obtain ⟨db'', hset, heq⟩ := exists_ok h
      simp only [Prod.mk.injEq] at heq
      obtain ⟨rfl, rfl⟩ := heq
      exact ⟨htitle, rfl, ⟨rfl, rfl, rfl⟩, (Database.setItems_ok hset).2.1⟩

end ItemRepository

section PartialUpdate

variable {db db' : Database} {item row : Item} {body : JsonObject} {data : ItemUpdate}
  {now : Timestamp} {itemId owner : Uuid} {request : Request} {cache : ItemCache}

theorem patched_of_update (hvalidate : ItemUpdate.validate (.obj body) = some data)
    (hmem : item ∈ db.items)
    (h : ItemRepository.update db item data now = .ok (row, db')) :
    Patched body item row := by
  obtain ⟨htitle, hdescription⟩ := ItemUpdate.validate_fields hvalidate
  obtain ⟨hrowTitle, hrowDescription, ⟨hid, howner, hcreated⟩, -⟩ :=
    ItemRepository.update_ok hmem h
  refine ⟨?_, ?_, hid, howner, hcreated⟩
  · rw [textField_value htitle]
    dsimp only
    cases hfield : data.title <;> simp_all
  · rw [textField_value hdescription, hrowDescription]
    dsimp only
    cases data.description <;> rfl

theorem title_of_update (hmem : item ∈ db.items) (htitle : 1 ≤ item.title.length)
    (h : ItemRepository.update db item data now = .ok (row, db')) :
    1 ≤ row.title.length ∧ row.title.length ≤ 255 := by
  have hrow := (ItemRepository.update_ok hmem h).1
  rcases hfield : data.title with _ | (_ | text)
  · have hsame : item.title = row.title := by simpa [hfield] using hrow
    exact hsame ▸ ⟨htitle, (db.consistent.itemFits item hmem).1⟩
  · simp [hfield] at hrow
  · have hset : text = row.title := by simpa [hfield] using hrow
    exact hset ▸ data.titleValid text (by simp [hfield])

/-- The service answers, and the stored item is the old one with the fields of the body. -/
def UpdatesItem (db : Database) (item : Item) (data : ItemUpdate) (body : JsonObject)
    (request : Request) (cache : ItemCache) : Prop :=
  ∃ row db', (ItemService.updateItem db item.id data item.ownerId request cache).1 =
      .ok (row.response, db') ∧
    db'.items = Rows.replace Item.id row db.items ∧ Patched body item row ∧
    1 ≤ row.title.length ∧ row.title.length ≤ 255

theorem updateItem_eq (hfind : ItemRepository.getById db item.id item.ownerId = some item) :
    (ItemService.updateItem db item.id data item.ownerId request cache).1 =
      (ItemRepository.update db item data request.tick.now).map fun p =>
        (p.1.response, p.2) := by
  have hitem : ItemService.findItem db item.id item.ownerId = .ok item := by
    rw [ItemService.findItem, hfind]
  unfold ItemService.updateItem
  rw [hitem]
  cases hupdate : ItemRepository.update db item data request.tick.now <;>
    simp [hupdate, ItemService.written, bind, Except.bind, Except.map]

theorem updatesItem_iff (hvalidate : ItemUpdate.validate (.obj body) = some data)
    (hfind : ItemRepository.getById db item.id item.ownerId = some item)
    (htitle : 1 ≤ item.title.length) :
    UpdatesItem db item data body request cache ↔ ItemRepository.Applies data := by
  have hmem := (ItemRepository.getById_eq_some hfind).1
  rw [← ItemRepository.update_succeeds data request.tick.now hmem, UpdatesItem,
    updateItem_eq hfind]
  constructor
  · rintro ⟨row, db', hupdate, -⟩
    exact exists_map_ok.mp ⟨_, hupdate⟩
  · rintro ⟨⟨row, db'⟩, hupdate⟩
    refine ⟨row, db', by rw [hupdate]; rfl, (ItemRepository.update_ok hmem hupdate).2.2.2,
      patched_of_update hvalidate hmem hupdate, title_of_update hmem htitle hupdate⟩

/-! ## Which bodies are treated as they should be -/

/-- Accepted bodies are applied, and bodies that set a field are accepted. -/
def PreservesValidity (db : Database) (item : Item) (request : Request) (cache : ItemCache)
    (body : Json) : Prop :=
  (∀ data, ItemUpdate.validate body = some data →
    ∃ o, body = .obj o ∧ UpdatesItem db item data o request cache) ∧
  ∀ o, body = .obj o → Sets o → (ItemUpdate.validate body).isSome

/--
No null title beside an acceptable description, no null description alone, and no zero
character in fields that pass their own checks.
-/
def Unharmed (o : JsonObject) : Prop :=
  (o.get? "title" = some .null → ∀ text, o.get? "description" = some (.str text) →
    10000 < text.length) ∧
  ¬ (o.get? "title" = none ∧ o.get? "description" = some .null) ∧
  ∀ title description, textField 1 255 (o.get? "title") = some title →
    textField 0 10000 (o.get? "description") = some description →
    (∀ text ∈ title.1.join, storable text = true) ∧
      ∀ text ∈ description.1.join, storable text = true

/-- Of the fields of an accepted body, only a null title and a zero character do harm. -/
theorem applies_iff (hvalidate : ItemUpdate.validate (.obj body) = some data) :
    ItemRepository.Applies data ↔ body.get? "title" ≠ some .null ∧
      (∀ text ∈ data.title.join, storable text = true) ∧
      ∀ text ∈ data.description.join, storable text = true := by
  have htitle := textField_value (ItemUpdate.validate_fields hvalidate).1
  dsimp only at htitle
  refine and_congr_left fun _ => not_congr ?_
  rw [htitle]
  rcases data.title with _ | (_ | text) <;> simp

theorem unharmed_of_preserves (hfind : ItemRepository.getById db item.id item.ownerId = some item)
    (htitle : 1 ≤ item.title.length)
    (h : PreservesValidity db item request cache (.obj body)) : Unharmed body := by
  have happlies {data : ItemUpdate} (hvalidate : ItemUpdate.validate (.obj body) = some data) :=
    let ⟨o, heq, hupdates⟩ := h.1 data hvalidate
    (applies_iff hvalidate).mp
      ((updatesItem_iff hvalidate hfind htitle).mp (Json.obj.inj heq ▸ hupdates))
  refine ⟨?_, ?_, ?_⟩
  · intro hnull text hdescription
    by_contra hlength
    have haccepted : (ItemUpdate.validate (.obj body)).isSome := by
      refine ItemUpdate.validate_isSome.mpr
        ⟨⟨some none, by simp⟩, ⟨some (some text), ?_⟩, ?_, ?_, .inr (by simp)⟩
      · simpa using not_lt.mp hlength
      · rw [hnull]
        rfl
      · rw [hdescription]
        simp [textField, not_lt.mp hlength]
    obtain ⟨data, hdata⟩ := Option.isSome_iff_exists.mp haccepted
    exact (happlies hdata).1 hnull
  · rintro ⟨habsent, hnull⟩
    have haccepted := h.2 body rfl ⟨by simp [habsent], by simp [hnull, StorableDescription],
      .inr (by simp [hnull])⟩
    simp [ItemUpdate.validate, habsent, hnull, textField] at haccepted
  · intro title description htitle hdescription
    by_cases hempty : title.1.join ≠ none ∨ description.1.join ≠ none
    · obtain ⟨data, hdata⟩ := Option.isSome_iff_exists.mp
        (ItemUpdate.validate_isSome.mpr ⟨title, description, htitle, hdescription, hempty⟩)
      obtain ⟨htitle', hdescription'⟩ := ItemUpdate.validate_fields hdata
      obtain rfl := Option.some.inj (htitle.symm.trans htitle')
      obtain rfl := Option.some.inj (hdescription.symm.trans hdescription')
      exact (happlies hdata).2
    · have hnone := not_or.mp hempty
      simp only [ne_eq, not_not] at hnone
      simp [hnone.1, hnone.2]

theorem accepted_of_sets (hsets : Sets body)
    (hnull : ¬ (body.get? "title" = none ∧ body.get? "description" = some .null)) :
    (ItemUpdate.validate (.obj body)).isSome := by
  obtain ⟨htitle, hdescription, hpresent⟩ := hsets
  cases ht : body.get? "title" with
  | none =>
      cases hd : body.get? "description" with
      | none => simp [ht, hd] at hpresent
      | some v =>
          rcases hdescription v (by simp [hd]) with rfl | ⟨text, rfl, hlow, hhigh, -⟩
          · exact absurd ⟨ht, hd⟩ hnull
          · simp [ItemUpdate.validate, ht, hd, textField, hhigh]
  | some v =>
      obtain ⟨title, rfl, hlow, hhigh, -⟩ := htitle v (by simp [ht])
      cases hd : body.get? "description" with
      | none => simp [ItemUpdate.validate, ht, hd, textField, hlow, hhigh]
      | some w =>
          rcases hdescription w (by simp [hd]) with rfl | ⟨text, rfl, -, hlength, -⟩
          · simp [ItemUpdate.validate, ht, hd, textField, hlow, hhigh]
          · simp [ItemUpdate.validate, ht, hd, textField, hlow, hhigh, hlength]

theorem preserves_of_unharmed
    (hfind : ItemRepository.getById db item.id item.ownerId = some item)
    (htitle : 1 ≤ item.title.length) (h : Unharmed body) :
    PreservesValidity db item request cache (.obj body) := by
  obtain ⟨htitleNull, hdescriptionNull, hstorable⟩ := h
  constructor
  · intro data hvalidate
    obtain ⟨hreadTitle, hreadDescription⟩ := ItemUpdate.validate_fields hvalidate
    refine ⟨body, rfl, (updatesItem_iff hvalidate hfind htitle).mpr
      ((applies_iff hvalidate).mpr ⟨fun hnull => ?_, ?_⟩)⟩
    · have hcleared : data.title.join = none := by
        have hvalue := textField_value hreadTitle
        rw [hnull] at hvalue
        dsimp only at hvalue
        rcases htitles : data.title with _ | (_ | text) <;> simp [htitles] at hvalue ⊢
      obtain ⟨text, htext⟩ := Option.ne_none_iff_exists'.mp
        (data.notEmpty.resolve_left fun h => h hcleared)
      have hdescription : body.get? "description" = some (.str text) := by
        rw [textField_value hreadDescription]
        simp [Option.join_eq_some_iff.mp htext]
      exact absurd (data.descriptionValid text htext)
        (not_le.mpr (htitleNull hnull text hdescription))
    · exact hstorable _ _ hreadTitle hreadDescription
  · rintro o heq hsets
    obtain rfl := Json.obj.inj heq
    exact accepted_of_sets hsets hdescriptionNull

end PartialUpdate

theorem ItemRepository.getById_of_mem {db : Database} {item : Item} (hmem : item ∈ db.items) :
    ItemRepository.getById db item.id item.ownerId = some item := by
  have hfound : (ItemRepository.getById db item.id item.ownerId).isSome := by
    rw [ItemRepository.getById, List.find?_isSome]
    exact ⟨item, hmem, by simp⟩
  obtain ⟨other, hother⟩ := Option.isSome_iff_exists.mp hfound
  obtain ⟨hmem', hid, -⟩ := ItemRepository.getById_eq_some hother
  rw [hother, db.consistent.itemId.eq hmem' hmem hid]

/-- Partial updates keep items valid exactly where no null is mistaken for an absent field. -/
theorem partial_update_iff (db : Database) (item : Item) (hmem : item ∈ db.items)
    (htitle : 1 ≤ item.title.length ∧ item.title.length ≤ 255) (body : Json)
    (request : Request) (cache : ItemCache) :
    PreservesValidity db item request cache body ↔ ∀ o, body = .obj o → Unharmed o := by
  have hfind := ItemRepository.getById_of_mem hmem
  constructor
  · rintro h o rfl
    exact unharmed_of_preserves hfind htitle.1 h
  · intro h
    cases body with
    | obj o => exact preserves_of_unharmed hfind htitle.1 (h o rfl)
    | null | bool _ | int _ | float _ | str _ | arr _ =>
        exact ⟨fun _ hvalidate => by simp [ItemUpdate.validate] at hvalidate,
          fun _ heq => by cases heq⟩

/-! ## A shelf with one item -/

def bread : Item := ⟨7, "Bread", some "Rye", 1, exampleTime, exampleTime⟩

def shelf : Database where
  users := AdminRouter.onlyAlice
  items := [bread]
  auditLog := []
  consistent := by decide +kernel

theorem renamed_bread :
    PreservesValidity shelf bread (exampleVisit "alice" [] 9) .empty
        (.obj [("title", .str "Rolls")]) ↔
      ∀ o, Json.obj [("title", .str "Rolls")] = .obj o → Unharmed o :=
  partial_update_iff shelf bread (by simp [shelf]) (by decide)
    (.obj [("title", .str "Rolls")]) (exampleVisit "alice" [] 9) .empty

def untitled : JsonObject := [("title", .null), ("description", .str "Wheat")]

def undescribed : JsonObject := [("description", .null)]

theorem null_title_fails_and_cleared_description_is_refused :
    (∃ data, ItemUpdate.validate (.obj untitled) = some data ∧
      (ItemService.updateItem shelf 7 data 1 (exampleVisit "alice" [] 9) .empty).1 =
        .error .sqlalchemy) ∧
      ¬ PreservesValidity shelf bread (exampleVisit "alice" [] 9) .empty (.obj untitled) ∧
      Sets undescribed ∧ ItemUpdate.validate (.obj undescribed) = none ∧
      ¬ PreservesValidity shelf bread (exampleVisit "alice" [] 9) .empty
        (.obj undescribed) := by
  obtain ⟨data, hdata⟩ := Option.isSome_iff_exists.mp
    (by decide : (ItemUpdate.validate (.obj untitled)).isSome)
  have hcleared : data.title = some none := by
    have hvalue := textField_value (ItemUpdate.validate_fields hdata).1
    have hnull : untitled.get? "title" = some .null := rfl
    rw [hnull] at hvalue
    dsimp only at hvalue
    rcases htitle : data.title with _ | (_ | text) <;> simp [htitle] at hvalue ⊢
  have hfails : (ItemService.updateItem shelf bread.id data bread.ownerId
      (exampleVisit "alice" [] 9) .empty).1 = .error .sqlalchemy := by
    rw [updateItem_eq (ItemRepository.getById_of_mem (by simp [shelf])),
      ItemRepository.update, hcleared]
    rfl
  have hsets : Sets undescribed :=
    ⟨by simp [undescribed, JsonObject.get?],
      by simp [undescribed, JsonObject.get?, StorableDescription],
      .inr (by simp [undescribed, JsonObject.get?])⟩
  have hrefused : ItemUpdate.validate (.obj undescribed) = none := rfl
  refine ⟨⟨data, hdata, hfails⟩, fun h => ?_, hsets, hrefused, fun h => ?_⟩
  · obtain ⟨o, -, row, db', hupdated, -⟩ := h.1 data hdata
    rw [hfails] at hupdated
    cases hupdated
  · have haccepted := h.2 undescribed rfl hsets
    rw [hrefused] at haccepted
    cases haccepted

end IsolatedEnv.Backend
