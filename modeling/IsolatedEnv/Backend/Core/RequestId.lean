import IsolatedEnv.Backend.Core.Middleware
import IsolatedEnv.Foundation.Cookies
import IsolatedEnv.Foundation.JsonText

/-!
# Request ids

`RequestIDMiddleware` on raw scopes: header names and values are bytes, read and
written as Latin-1.
-/

namespace IsolatedEnv.Backend

open IsolatedEnv.Foundation

abbrev RawHeaders := List (List Byte × List Byte)

/-- What the middleware reads of a scope; it may have no header list. -/
structure Scope where
  type : String
  headers : Option RawHeaders

structure AsgiMessage where
  type : String
  headers : Option RawHeaders

def latin1 (bytes : List Byte) : List Char := bytes.map fun b => Char.ofNat b.val

/-- `text.encode("latin-1")`; `none` stands for a `UnicodeEncodeError`. -/
def encodeLatin1 : List Char → Option (List Byte)
  | [] => some []
  | c :: cs =>
      if h : c.toNat < 256 then (encodeLatin1 cs).map fun bytes => ⟨c.toNat, h⟩ :: bytes
      else none

namespace RequestIDMiddleware

def headerName : List Byte := asciiBytes "x-request-id".toList

/-- The loop over the headers; it stops at the first one of the name. -/
def extract : RawHeaders → Option (List Char)
  | [] => none
  | (name, value) :: rest =>
      if name = headerName then
        if validRequestId (latin1 value) then some (latin1 value) else none
      else extract rest

def rid (scope : Scope) (newId : Uuid) : List Char :=
  match extract (scope.headers.getD []) with
  | some rid => if rid.isEmpty then newId.hex else rid
  | none => newId.hex

def sendWithHeader (rid : List Char) (message : AsgiMessage) : Option AsgiMessage :=
  if message.type = "http.response.start" then
    (encodeLatin1 rid).map fun value =>
      { message with headers := some (message.headers.getD [] ++ [(headerName, value)]) }
  else some message

/-- The id bound to the logging context, and `send` as the application sees it. -/
def call (scope : Scope) (newId : Uuid) :
    Option (List Char × (AsgiMessage → Option AsgiMessage)) :=
  if scope.type ∈ ["http", "websocket"] then
    some (rid scope newId, sendWithHeader (rid scope newId))
  else none

end RequestIDMiddleware

/-! ## Latin-1 -/

theorem latin1_injective : Function.Injective latin1 := by
  refine List.map_injective_iff.mpr fun a b h => Fin.ext ?_
  rw [← toNat_octet a.isLt, ← toNat_octet b.isLt, h]

theorem encodeLatin1_latin1 (bytes : List Byte) :
    encodeLatin1 (latin1 bytes) = some bytes := by
  induction bytes with
  | nil => rfl
  | cons b bytes ih =>
      change (if h : (Char.ofNat b.val).toNat < 256 then
        (encodeLatin1 (latin1 bytes)).map fun rest => ⟨_, h⟩ :: rest else none) = _
      rw [dif_pos (by rw [toNat_octet b.isLt]; exact b.isLt), ih, Option.map_some]
      congr 2
      exact Fin.ext (toNat_octet b.isLt)

theorem exists_latin1 {cs : List Char} (h : ∀ c ∈ cs, c.toNat < 256) :
    ∃ bytes, latin1 bytes = cs := by
  induction cs with
  | nil => exact ⟨[], rfl⟩
  | cons c cs ih =>
      obtain ⟨bytes, rfl⟩ := ih fun d hd => h d (List.mem_cons_of_mem c hd)
      exact ⟨⟨c.toNat, h c List.mem_cons_self⟩ :: bytes, by simp [latin1]⟩

/-! ## Which ids are safe -/

def safeChar (c : Char) : Bool :=
  c.isAlphanum || c = '.' || c = '_' || c = '-'

/-- One to 64 of the characters a-z, A-Z, 0-9, '.', '_' and '-'. -/
def SafeId (cs : List Char) : Prop :=
  1 ≤ cs.length ∧ cs.length ≤ 64 ∧ ∀ c ∈ cs, safeChar c = true

theorem not_safeId_newline (cs : List Char) : ¬ SafeId (cs ++ ['\n']) := by
  rintro ⟨-, -, hchars⟩
  exact absurd (hchars '\n' (by simp)) (by decide)

theorem validRequestId_iff {cs : List Char} :
    validRequestId cs = true ↔ SafeId cs ∨ ∃ id, cs = id ++ ['\n'] ∧ SafeId id := by
  have hvalid (cs : List Char) :
      (1 ≤ cs.length && cs.length ≤ 64 && cs.all fun c => safeChar c) = true ↔
        SafeId cs := by
    simp [SafeId, and_assoc]
  have hunfold : validRequestId cs =
      ((1 ≤ cs.length && cs.length ≤ 64 && cs.all fun c => safeChar c) ||
        (cs.getLast? = some '\n' && (1 ≤ cs.dropLast.length && cs.dropLast.length ≤ 64 &&
          cs.dropLast.all fun c => safeChar c))) := rfl
  rw [hunfold, Bool.or_eq_true, hvalid, Bool.and_eq_true, hvalid, decide_eq_true_eq]
  refine or_congr_right ⟨?_, ?_⟩
  · rintro ⟨hlast, hsafe⟩
    exact ⟨cs.dropLast, (List.dropLast_append_getLast? '\n' hlast).symm, hsafe⟩
  · rintro ⟨id, rfl, hsafe⟩
    simpa using hsafe

theorem safeId_hex (newId : Uuid) : SafeId newId.hex := by
  have hdigit : ∀ d < 16, safeChar d.digitChar = true := by decide
  refine ⟨by simp [Uuid.hex_length], by simp [Uuid.hex_length], fun c hc => ?_⟩
  obtain ⟨d, hd, rfl⟩ := Uuid.mem_hex hc
  exact hdigit d hd

/-! ## The id of a request -/

namespace RequestIDMiddleware

variable {scope : Scope} {newId : Uuid}

/-- The value of the first `x-request-id` header, decoded. -/
def supplied (scope : Scope) : Option (List Char) :=
  ((scope.headers.getD []).find? fun h => h.1 = headerName).map fun h => latin1 h.2

theorem extract_eq (headers : RawHeaders) :
    extract headers = ((headers.find? fun h => h.1 = headerName).map fun h =>
      latin1 h.2).filter validRequestId := by
  induction headers with
  | nil => rfl
  | cons h headers ih =>
      obtain ⟨name, value⟩ := h
      by_cases hname : name = headerName
      · simp [extract, hname, Option.filter]
      · simp [extract, hname, ih]

theorem rid_eq : rid scope newId = ((supplied scope).filter validRequestId).getD newId.hex := by
  rw [rid, extract_eq, ← supplied]
  cases hsupplied : (supplied scope).filter validRequestId with
  | none => rfl
  | some cs =>
      have hvalid := (Option.filter_eq_some_iff.mp hsupplied).2
      have hne : cs.isEmpty = false := by
        rcases validRequestId_iff.mp hvalid with h | ⟨id, rfl, -⟩
        · cases cs with
          | nil => exact absurd h.1 (by decide)
          | cons _ _ => rfl
        · simp
      simp [hne]

theorem latin1_headerName : latin1 headerName = "x-request-id".toList := by
  decide

/-- The model on decoded headers chooses the same id. -/
theorem requestId_eq_rid {request : HttpRequest}
    (hhex : request.hex = String.ofList newId.hex)
    (hheaders : request.headers = (scope.headers.getD []).map fun h =>
      (String.ofList (latin1 h.1), String.ofList (latin1 h.2))) :
    requestId request = String.ofList (rid scope newId) := by
  have hname (h : List Byte × List Byte) :
      String.ofList (latin1 h.1) = "x-request-id" ↔ h.1 = headerName := by
    rw [← latin1_injective.eq_iff, latin1_headerName, ← String.toList_inj,
      String.toList_ofList]
  have hget : request.headers.get? "x-request-id" =
      (supplied scope).map String.ofList := by
    rw [hheaders, Headers.get?, supplied, List.find?_map, Option.map_map, Option.map_map]
    simp only [Function.comp_def, hname]
  rw [requestId, hget, rid_eq, hhex]
  cases supplied scope with
  | none => rfl
  | some cs => cases hvalid : validRequestId cs <;> simp [hvalid, Option.filter]

theorem supplied_bytes {cs : List Char} (h : supplied scope = some cs) :
    ∃ bytes, latin1 bytes = cs := by
  obtain ⟨header, -, rfl⟩ := Option.map_eq_some_iff.mp h
  exact ⟨header.2, rfl⟩

theorem rid_bytes : ∃ bytes, latin1 bytes = rid scope newId := by
  rw [rid_eq]
  cases hfilter : (supplied scope).filter validRequestId with
  | some cs => exact supplied_bytes (Option.filter_eq_some_iff.mp hfilter).1
  | none =>
      refine exists_latin1 fun c hc => ?_
      obtain ⟨d, hd, rfl⟩ := Uuid.mem_hex hc
      interval_cases d <;> decide

theorem safeId_rid : SafeId (rid scope newId) ↔
    ∀ id, supplied scope = some (id ++ ['\n']) → ¬ SafeId id := by
  rw [rid_eq]
  cases hsupplied : supplied scope with
  | none => simp [safeId_hex]
  | some cs =>
      cases hvalid : validRequestId cs with
      | false =>
          have hnone : ¬ ∃ id, cs = id ++ ['\n'] ∧ SafeId id := fun h =>
            absurd (validRequestId_iff.mpr (.inr h)) (by simp [hvalid])
          simpa [hvalid, Option.filter, safeId_hex] using fun id heq hsafe =>
            hnone ⟨id, heq, hsafe⟩
      | true =>
          simp only [Option.filter, hvalid, if_true, Option.getD_some, Option.some.injEq]
          constructor
          · rintro hsafe id rfl
            exact absurd hsafe (not_safeId_newline id)
          · intro hnone
            rcases validRequestId_iff.mp hvalid with hsafe | ⟨id, rfl, hsafe⟩
            · exact hsafe
            · exact absurd hsafe (hnone id rfl)

theorem rid_of_safe {cs : List Char} (h : supplied scope = some cs) (hsafe : SafeId cs) :
    rid scope newId = cs := by
  rw [rid_eq, h]
  simp [Option.filter, validRequestId_iff.mpr (.inl hsafe)]

theorem sendWithHeader_start {id : List Char} {value : List Byte} (h : latin1 value = id)
    {message : AsgiMessage} (htype : message.type = "http.response.start") :
    sendWithHeader id message = some { message with
      headers := some (message.headers.getD [] ++ [(headerName, value)]) } := by
  rw [sendWithHeader, if_pos htype, ← h, encodeLatin1_latin1, Option.map_some]

/-- The id of the log and of every response start is safe, and a safe one is kept. -/
def Safe (scope : Scope) (newId : Uuid) : Prop :=
  ∃ id send, call scope newId = some (id, send) ∧ SafeId id ∧
    (∃ value, latin1 value = id ∧ ∀ message : AsgiMessage,
      message.type = "http.response.start" →
        send message = some { message with
          headers := some (message.headers.getD [] ++ [(headerName, value)]) }) ∧
    ∀ cs, supplied scope = some cs → SafeId cs → id = cs

/-- `$` matches before a final line feed, and nothing else goes wrong. -/
theorem request_id_safe_iff (scope : Scope) (newId : Uuid)
    (htype : scope.type = "http" ∨ scope.type = "websocket") :
    Safe scope newId ↔ ∀ id, supplied scope = some (id ++ ['\n']) → ¬ SafeId id := by
  have hcall : call scope newId =
      some (rid scope newId, sendWithHeader (rid scope newId)) :=
    if_pos (by simpa using htype)
  rw [← safeId_rid]
  constructor
  · rintro ⟨id, send, heq, hsafe, -⟩
    rw [hcall, Option.some.injEq, Prod.mk.injEq] at heq
    exact heq.1 ▸ hsafe
  · intro hsafe
    obtain ⟨value, hvalue⟩ : ∃ bytes, latin1 bytes = rid scope newId := rid_bytes
    exact ⟨_, _, hcall, hsafe, ⟨value, hvalue, fun _ => sendWithHeader_start hvalue⟩,
      fun _ => rid_of_safe⟩

def tagged (id : String) : Scope :=
  ⟨"http", some [(headerName, asciiBytes id.toList)]⟩

theorem tagged_safe : Safe (tagged "a.b-7") 1 := by
  apply (request_id_safe_iff (tagged "a.b-7") 1 (.inl rfl)).mpr
  intro id hid
  have hsupplied : supplied (tagged "a.b-7") = some ("a.b-7".toList) := by decide
  have hlast := congrArg List.getLast? (Option.some.inj (hsupplied.symm.trans hid))
  simp at hlast

theorem newline_reaches_log :
    rid (tagged "a\n") 1 = ['a', '\n'] ∧ ¬ Safe (tagged "a\n") 1 := by
  have hrid : rid (tagged "a\n") 1 = ['a', '\n'] := by decide
  refine ⟨hrid, ?_⟩
  rintro ⟨id, send, heq, hsafe, -⟩
  rw [call, if_pos (by decide), Option.some.injEq, Prod.mk.injEq, hrid] at heq
  obtain ⟨rfl, -⟩ := heq
  exact not_safeId_newline ['a'] hsafe

end RequestIDMiddleware

end IsolatedEnv.Backend
