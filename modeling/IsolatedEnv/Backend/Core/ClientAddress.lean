import IsolatedEnv.Backend.Audit.Trail
import IsolatedEnv.Backend.Core.RateLimit

/-!
# The address of a client behind nginx

nginx appends the address of its own peer to whatever `X-Forwarded-For` lines came
with the request.  The backend's peer is nginx.
-/

namespace IsolatedEnv.Backend

open IsolatedEnv.Foundation

/-- The characters in which nginx prints an address. -/
def addressChar (c : Char) : Bool :=
  c.isDigit || ('a' ≤ c && c ≤ 'f') || c = '.' || c = ':'

/-- `$remote_addr`. -/
structure RemoteAddr where
  text : String
  nonempty : text ≠ ""
  chars : ∀ c ∈ text.toList, addressChar c = true

/-- `$proxy_add_x_forwarded_for`, for the lines of that header that the client sent. -/
def proxyAddXForwardedFor (sent : List String) (a : RemoteAddr) : String :=
  String.join (sent.map (· ++ ", ")) ++ a.text

/-- The request as nginx passes it on. -/
def Request.throughNginx (request : Request) (sent : List String) (a : RemoteAddr) : Request :=
  { request with forwardedFor := some (proxyAddXForwardedFor sent a) }

/-! ## The last hop -/

theorem addressChar_bounds {c : Char} (h : addressChar c = true) :
    46 ≤ c.toNat ∧ c.toNat ≤ 102 := by
  simp only [addressChar, Bool.or_eq_true, Bool.and_eq_true, decide_eq_true_eq, Char.isDigit,
    Char.le_def, UInt32.le_iff_toNat_le] at h
  rcases h with ((hdigit | hhex) | rfl) | rfl
  · change 48 ≤ c.toNat ∧ c.toNat ≤ 57 at hdigit
    omega
  · change 97 ≤ c.toNat ∧ c.toNat ≤ 102 at hhex
    omega
  · decide
  · decide

theorem addressChar_not_isSpace {c : Char} (h : addressChar c = true) : isSpace c = false := by
  have hbounds := addressChar_bounds h
  have hspace : c ≠ ' ' := by
    rintro rfl
    exact absurd hbounds (by decide)
  simp only [isSpace, Bool.or_eq_false_iff, Bool.and_eq_false_iff, decide_eq_false_iff_not]
  refine ⟨⟨⟨⟨hspace, ?_⟩, ?_⟩, ?_⟩, ?_⟩ <;> omega

namespace RemoteAddr

theorem noComma (a : RemoteAddr) : ∀ c ∈ a.text.toList, (c == ',') = false := by
  intro c hc
  have hne : c ≠ ',' := by
    rintro rfl
    exact absurd (a.chars ',' hc) (by decide)
  simpa using hne

theorem noSpace (a : RemoteAddr) : ∀ c ∈ a.text.toList, isSpace c = false :=
  fun c hc => addressChar_not_isSpace (a.chars c hc)

theorem ne_unknown (a : RemoteAddr) : a.text ≠ "unknown" := by
  intro h
  have hchar := a.chars 'u' (by rw [h]; decide)
  exact absurd hchar (by decide)

end RemoteAddr

/-- The part after the last comma, when what is put before it ends in a comma and a blank. -/
theorem lastForwarded_append (before : String) (a : RemoteAddr) :
    Request.lastForwarded (before ++ ", " ++ a.text) = a.text := by
  unfold Request.lastForwarded
  have hsplit : ((before ++ ", " ++ a.text).toList.splitOn ',').getLastD [] =
      ' ' :: a.text.toList := by
    have hlist : (before ++ ", " ++ a.text).toList =
        before.toList ++ ',' :: (' ' :: a.text.toList) := by
      simp
    have hlast : ∀ c ∈ ' ' :: a.text.toList, (c == ',') = false := by
      intro c hc
      rcases List.mem_cons.mp hc with rfl | hc
      · decide
      · exact a.noComma c hc
    rw [hlist, List.splitOn_eq_splitOnP, List.splitOnP_append_cons _ _ (by simp),
      List.splitOnP_eq_singleton hlast]
    simp
  have hblank : stripChars isSpace (' ' :: a.text.toList) = stripChars isSpace a.text.toList := by
    simp [stripChars, isSpace]
  rw [hsplit, hblank, stripChars_eq_self a.noSpace, String.ofList_toList]

theorem lastForwarded_alone (a : RemoteAddr) : Request.lastForwarded a.text = a.text := by
  unfold Request.lastForwarded
  rw [List.splitOn_eq_splitOnP, List.splitOnP_eq_singleton a.noComma, List.getLastD_cons,
    List.getLastD_nil, stripChars_eq_self a.noSpace, String.ofList_toList]

/-- Whatever the client sent, the last hop is the one nginx added. -/
theorem lastForwarded_proxy (sent : List String) (a : RemoteAddr) :
    Request.lastForwarded (proxyAddXForwardedFor sent a) = a.text := by
  unfold proxyAddXForwardedFor
  rcases List.eq_nil_or_concat sent with rfl | ⟨earlier, last, rfl⟩
  · simpa using lastForwarded_alone a
  · have hjoin : String.join ((earlier.concat last).map (· ++ ", ")) =
        String.join (earlier.map (· ++ ", ")) ++ last ++ ", " := by
      simp [String.join, String.append_assoc]
    rw [hjoin]
    exact lastForwarded_append _ a

theorem proxyAddXForwardedFor_ne_empty (sent : List String) (a : RemoteAddr) :
    proxyAddXForwardedFor sent a ≠ "" := by
  intro h
  have htext := (String.append_eq_empty_iff.mp h).2
  exact a.nonempty htext

/-! ## What the backend makes of it -/

variable {env : Env} {request : Request} {app : App} {sent : List String} {a : RemoteAddr}
  {route : UserRoute}

theorem realIp_throughNginx : (request.throughNginx sent a).realIp = a.text := by
  simp [Request.realIp, Request.throughNginx, proxyAddXForwardedFor_ne_empty,
    lastForwarded_proxy]

theorem getClientIp_throughNginx (haddress : env.python.isIpAddress a.text = true) :
    (request.throughNginx sent a).getClientIp env.python = a.text := by
  simp [Request.getClientIp, Request.throughNginx, proxyAddXForwardedFor_ne_empty,
    lastForwarded_proxy, haddress]

theorem recordedAddress_throughNginx (haddress : env.python.isIpAddress a.text = true) :
    route.recordedAddress env (request.throughNginx sent a) = a.text ↔
      (route = .deleteSelf → request.clientHost = some a.text) := by
  cases route with
  | deleteSelf =>
      change request.clientHost.getD "unknown" = a.text ↔ _
      cases request.clientHost with
      | none => simp [Ne.symm a.ne_unknown]
      | some host => simp
  | _ => simp [UserRoute.recordedAddress, getClientIp_throughNginx haddress]

/-- An entry that a request adds holds the address of its route. -/
theorem recordedAddress_of_added {entry : AuditLog}
    (hadded : (app.serve env request (.user route)).2.db.auditLog =
      app.db.auditLog ++ [entry]) :
    entry.ipAddress = some (route.recordedAddress env request) := by
  have hchanged {log : List AuditLog} : log ≠ log ++ [entry] := by simp
  cases hresult : (route.serve env request app.db app.members).1 with
  | error e =>
      have hanswer : (app.serve env request (.user route)).1 = .error e := by
        simp [App.serve, hresult, Except.map]
      rw [serve_error_db hanswer] at hadded
      exact absurd hadded hchanged
  | ok finished =>
      have hdb : (app.serve env request (.user route)).2.db =
          finished.tables.getD app.db := by
        simp [App.serve, hresult, settle]
      rw [hdb] at hadded
      cases htables : finished.tables with
      | none =>
          rw [htables] at hadded
          exact absurd hadded hchanged
      | some tables =>
          rw [htables] at hadded
          obtain ⟨acting, users, -, hrecorded⟩ := serve_recorded hresult htables
          cases hrecorded with
          | nothing unaudited noFact same => exact absurd (same.symm.trans hadded) hchanged
          | entry e audited due address appended =>
              have hsame := List.append_cancel_left (appended.symm.trans hadded)
              cases hsame
              exact address

/--
Through nginx, the rate limiter's key is the address of nginx's peer; so is the address
in an entry, except that of `delete_self`, which is nginx's own.
-/
theorem client_address_iff (request : Request) (sent : List String) (a : RemoteAddr)
    (app : App) (route : UserRoute) (haddress : env.python.isIpAddress a.text = true) :
    (request.throughNginx sent a).realIp = a.text ∧
      ∀ entry, (app.serve env (request.throughNginx sent a) (.user route)).2.db.auditLog =
          app.db.auditLog ++ [entry] →
        (entry.ipAddress = some a.text ↔
          (route = .deleteSelf → request.clientHost = some a.text)) := by
  refine ⟨realIp_throughNginx, fun entry hadded => ?_⟩
  rw [recordedAddress_of_added hadded, Option.some.injEq]
  exact recordedAddress_throughNginx haddress

/-! ## Alice behind nginx -/

def proxiedEnv : Env :=
  { exampleEnv with
    python := { exampleEnv.python with isIpAddress := fun text => text = "203.0.113.7" } }

def alicesAddr : RemoteAddr := ⟨"203.0.113.7", by decide, by simp [addressChar]⟩

theorem alices_block_address :
    ((Mutation.alicesBlock none).throughNginx ["10.1.1.1, 10.2.2.2"] alicesAddr).realIp =
        alicesAddr.text ∧
      ∀ entry, (App.beforeBlock.serve proxiedEnv
          ((Mutation.alicesBlock none).throughNginx ["10.1.1.1, 10.2.2.2"] alicesAddr)
          (.user (.blockUser (some (2, false))))).2.db.auditLog =
            App.beforeBlock.db.auditLog ++ [entry] →
        (entry.ipAddress = some alicesAddr.text ↔
          (UserRoute.blockUser (some (2, false)) = .deleteSelf →
            (Mutation.alicesBlock none).clientHost = some alicesAddr.text)) :=
  client_address_iff (Mutation.alicesBlock none) ["10.1.1.1, 10.2.2.2"] alicesAddr
    App.beforeBlock (.blockUser (some (2, false))) (by decide +kernel)

theorem own_deletion_records_proxy :
    App.beforeBlock.db.auditLog = [] ∧
      (App.beforeBlock.serve proxiedEnv
          ((exampleVisit "alice" ["admins"] 100).throughNginx [] alicesAddr)
          (.user .deleteSelf)).2.db.auditLog.map AuditLog.ipAddress = [some "10.0.0.1"] ∧
      alicesAddr.text ≠ "10.0.0.1" := by
  refine ⟨rfl, ?_, ?_⟩ <;> decide +kernel

end IsolatedEnv.Backend
