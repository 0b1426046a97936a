import IsolatedEnv.Backend.Core.Database

/-!
# The audit log

`AuditLogService.record` and the listing of the entries.
-/

namespace IsolatedEnv.Backend

open IsolatedEnv.Foundation

structure AuditFilter where
  action : Option String
  search : Option String

def AuditFilter.matches (env : Env) (filter : AuditFilter) (e : AuditLog) : Bool :=
  (filter.action.all fun action => e.action = action) &&
    filter.search.all fun search =>
      search = "" || ilike env e.adminEmail (searchPattern search) ||
        ilike env e.targetUserEmail (searchPattern search)

/-- The texts that the clauses of a filter send along. -/
def AuditFilter.texts (filter : AuditFilter) : List String :=
  filter.action.toList ++ filter.search.toList

structure AuditLogListResponse where
  entries : List AuditLog
  total : Nat
  offset : Nat
  limit : Nat

namespace AuditLogRepository

def listEntries (env : Env) (db : Database) (filter : AuditFilter)
    (offset limit : Nat) (rank : Uuid → Nat) : Except Exc (List AuditLog) :=
  select filter.texts [offset, limit]
    (((newestFirst AuditLog.createdAt (fun e => rank e.id)
      (db.auditLog.filter (filter.matches env))).drop offset).take limit)

def countEntries (env : Env) (db : Database) (filter : AuditFilter) : Except Exc Nat :=
  select filter.texts [] (db.auditLog.filter (filter.matches env)).length

end AuditLogRepository

def listEntries (env : Env) (db : Database) (filter : AuditFilter)
    (offset limit : Nat) (rank : Uuid → Nat) : Except Exc AuditLogListResponse := do
  let entries ← AuditLogRepository.listEntries env db filter offset limit rank
  let total ← AuditLogRepository.countEntries env db filter
  .ok ⟨entries, total, offset, limit⟩

/-- `AuditLogRepository.create`; the failure is one of the database itself. -/
def createEntry (db : Database) (failure : Option DatabaseFailure) (entry : AuditLog) :
    Except Exc Database :=
  match failure with
  | some e => .error e
  | none => db.insertAudit entry

/--
`AuditLogService.record`: whatever the insert raises is logged and swallowed, and
leaves the session deactivated.
-/
def record (db : Database) (failure : Option DatabaseFailure) (entry : AuditLog) :
    Option Database :=
  match createEntry db failure entry with
  | .ok db' => some db'
  | .error _ => none

section Record

variable {db db' : Database} {failure : Option DatabaseFailure} {entry : AuditLog}

/-- The `except` clause names all that the insert can raise. -/
theorem createEntry_error {e : Exc} (h : createEntry db failure entry = .error e) :
    e.isDatabase = true := by
  cases failure with
  | some e' =>
      cases h
      exact e'.2
  | none =>
      unfold createEntry Database.insertAudit at h
      dsimp only at h
      split at h
      · cases h
      · cases h
        rfl

theorem record_eq_some :
    record db failure entry = some db' ↔
      failure = none ∧ db.insertAudit entry = .ok db' := by
  unfold record createEntry
  cases failure with
  | some e => simp
  | none => cases db.insertAudit entry <;> simp

theorem record_users (h : record db failure entry = some db') :
    db'.users = db.users :=
  (Database.insertAudit_ok (record_eq_some.mp h).2).1

theorem record_auditLog (h : record db failure entry = some db') :
    db'.auditLog = db.auditLog ++ [entry] :=
  (Database.insertAudit_ok (record_eq_some.mp h).2).2

end Record

end IsolatedEnv.Backend
