import IsolatedEnv.Backend.Blocking
import IsolatedEnv.Backend.Effects
import IsolatedEnv.Backend.OffsetPages
import Mathlib.Data.List.Chain

/-!
# Reading a log that grows

An admin turns the pages of the audit log while other requests are served.  Entries that
come in push the others back, so some may be shown twice, but none is passed over.
-/

namespace IsolatedEnv.Backend

open IsolatedEnv.Foundation

variable {env : Env} {app app' : App} {filter : AuditFilter} {limit k : Nat}

/-! ## The log is only added to -/

theorem Effect.log_prefix {request : Request} {acting : User} {db db' : Database}
    {route : UserRoute} (h : Effect env request acting db route db') :
    db.auditLog <+: db'.auditLog := by
  cases h with
  | read unaudited => exact List.prefix_rfl
  | wrote entry change due users_eq items_eq log_eq =>
      rw [log_eq]
      exact List.prefix_append _ _

theorem serve_log_kept (request : Request) (route : Route) :
    app.db.auditLog <+: (app.serve env request route).2.db.auditLog := by
  cases route with
  | item route =>
      rw [(serve_item_same route).2]
  | user route =>
      cases app.served env request route with
      | nothing same => rw [same]
      | done acting users current gate effect => exact effect.log_prefix

theorem run_log_prefix {events : List App.Event}
    (hrun : run (App.step env) app events = some app') : app.db.auditLog <+: app'.db.auditLog := by
  have hstep (s : App) (e : App.Event) (s' : App) (hs : app.db.auditLog <+: s.db.auditLog)
      (hstep : s.step env e = some s') : app.db.auditLog <+: s'.db.auditLog := by
    cases e with
    | expire key =>
        cases hstep
        exact hs
    | request request route =>
        cases hstep
        exact hs.trans (serve_log_kept request route)
  exact run_invariant hstep List.prefix_rfl hrun

/-! ## Turning the pages -/

/-- A page as it was answered, with the log and the order of ties at that time. -/
structure LogPage where
  log : List AuditLog
  rank : Uuid → Nat
  listing : AuditLogListResponse

/-- Page after page from page `k` on, each behind whatever is served before it. -/
def App.turnPages (env : Env) (filter : AuditFilter) (limit : Nat) :
    Nat → App → List (List App.Event × Request) → Option (List LogPage)
  | _, _, [] => some []
  | k, app, (events, request) :: rest => do
      let before ← run (App.step env) app events
      match before.serve env request (.user (.listAuditLog (some (filter, k * limit, limit)))) with
      | (.ok (.auditLog listing), after) => do
          let pages ← after.turnPages env filter limit (k + 1) rest
          some (⟨before.db.auditLog, request.rank, listing⟩ :: pages)
      | _ => none

namespace LogPage

variable (env : Env) (filter : AuditFilter)

def rows (p : LogPage) : List AuditLog := p.log.filter (filter.matches env)

def order (p : LogPage) : List AuditLog :=
  newestFirst AuditLog.createdAt (fun e => p.rank e.id) (p.rows env filter)

/-- The rows and the order the page was cut from. -/
def view (p : LogPage) : List AuditLog × List AuditLog := (p.rows env filter, p.order env filter)

structure Shows (limit k : Nat) (p : LogPage) : Prop where
  entries : p.listing.entries = Offset.page limit k (p.order env filter)
  total : p.listing.total = (p.rows env filter).length

end LogPage

theorem serve_listAuditLog {request : Request} {listing : AuditLogListResponse}
    (h : (app.serve env request (.user (.listAuditLog (some (filter, k * limit, limit))))).1 =
      .ok (.auditLog listing)) :
    LogPage.Shows env filter limit k ⟨app.db.auditLog, request.rank, listing⟩ := by
  have hresult : ((UserRoute.listAuditLog (some (filter, k * limit, limit))).serve env request
      app.db app.members).1.map Finished.value = .ok (.auditLog listing) := h
  obtain ⟨finished, hfinished, hvalue⟩ := exists_ok hresult
  obtain ⟨acting, users, endpoint, hcurrent, hgate, hendpoint, hend⟩ :=
    UserRoute.serve_ok hfinished
  cases hendpoint
  obtain ⟨found, hfound, rfl⟩ := exists_ok hend
  cases hvalue
  obtain ⟨entries, hentries, hfound⟩ := bind_eq_ok.mp hfound
  obtain ⟨total, htotal, hfound⟩ := bind_eq_ok.mp hfound
  cases hfound
  exact ⟨(select_eq_ok.mp hentries).2.symm, (select_eq_ok.mp htotal).2.symm⟩

/-- What turning the pages answers, in terms of the pages alone. -/
theorem turnPages_spec {visits : List (List App.Event × Request)} {pages : List LogPage}
    (h : app.turnPages env filter limit k visits = some pages) :
    (∀ p ∈ pages.head?, app.db.auditLog <+: p.log) ∧
      (pages.IsChain fun p q => p.log <+: q.log) ∧
      ∀ (j : Nat) p, pages[j]? = some p → p.Shows env filter limit (k + j) := by
  induction visits generalizing app k pages with
  | nil =>
      cases h
      exact ⟨fun p hp => (by cases hp), .nil, fun j p hp => (by cases hp)⟩
  | cons visit rest ih =>
      obtain ⟨events, request⟩ := visit
      simp only [App.turnPages, Option.bind_eq_bind, Option.bind_eq_some_iff] at h
      obtain ⟨before, hbefore, h⟩ := h
      split at h
      · rename_i listing after hserve
        simp only [Option.bind_eq_some_iff, Option.some.injEq] at h
        obtain ⟨others, hothers, rfl⟩ := h
        obtain ⟨hhead, hchain, hshows⟩ := ih hothers
        have hlisting := serve_listAuditLog (congrArg Prod.fst hserve)
        have hafter : before.db.auditLog <+: after.db.auditLog := by
          have hlast := congrArg (fun served => served.2.db.auditLog) hserve
          rw [← show _ = after.db.auditLog from hlast]
          exact serve_log_kept request _
        refine ⟨?_, ?_, fun j p hp => ?_⟩
        · rintro p ⟨⟩
          exact run_log_prefix hbefore
        · cases others with
          | nil => exact .singleton _
          | cons p others => exact List.isChain_cons_cons.mpr ⟨hafter.trans (hhead p rfl), hchain⟩
        · cases j with
          | zero =>
              cases hp
              exact hlisting
          | succ j =>
              rw [Nat.add_comm j 1, ← Nat.add_assoc]
              exact hshows j p hp
      · cases h

/-- The creation time of an entry, as the listing sorts by it. -/
def AuditLog.moment (e : AuditLog) : Nat := e.createdAt.microseconds

/--
Whoever turns the pages until one is the last by its total has seen each entry that was there
at the start, unless a page began between the entry and another one of its time.
-/
theorem growing_log_missed_nothing (env : Env) (filter : AuditFilter) (limit : Nat) (app : App)
    (visits : List (List App.Event × Request)) (pages : List LogPage) (last : LogPage)
    (hturn : app.turnPages env filter limit 0 visits = some pages)
    (hlast : pages.getLast? = some last) (hend : last.listing.total ≤ pages.length * limit)
    (entry : AuditLog) (hentry : entry ∈ app.db.auditLog) (hmatch : filter.matches env entry)
    (hties : ∀ (k : Nat) p, pages[k]? = some p →
      ¬Offset.SplitsAt AuditLog.moment (p.rows env filter) (k * limit) entry) :
    ∃ p ∈ pages, entry ∈ p.listing.entries := by
  obtain ⟨hhead, hchain, hshows⟩ := turnPages_spec hturn
  have hordered : ∀ v ∈ pages.map (LogPage.view env filter),
      Offset.Ordered AuditLog.moment v.1 v.2 :=
    List.forall_mem_map.mpr fun p _ => newestFirst_ordered AuditLog.createdAt _ _
  have hgrowing : (pages.map (LogPage.view env filter)).IsChain fun v w => v.1.Sublist w.1 :=
    (List.isChain_map _).mpr (hchain.imp fun _ _ hpq => hpq.sublist.filter _)
  have hstart : ∀ v ∈ (pages.map (LogPage.view env filter)).head?,
      entry ∈ v.1 ∧ ∀ i, v.2[i]? = some entry → 0 * limit ≤ i := by
    rw [List.head?_map]
    rintro v hv
    obtain ⟨p, hp, rfl⟩ := Option.map_eq_some_iff.mp hv
    refine ⟨List.mem_filter.mpr ⟨(hhead p hp).subset hentry, hmatch⟩, fun i _ => ?_⟩
    rw [Nat.zero_mul]
    exact Nat.zero_le i
  have hfits : ∃ v ∈ (pages.map (LogPage.view env filter)).getLast?,
      v.1.length ≤ (0 + (pages.map (LogPage.view env filter)).length) * limit := by
    obtain ⟨j, hj⟩ := List.getElem?_of_mem (List.mem_of_getLast? hlast)
    refine ⟨last.view env filter, ?_, ?_⟩
    · rw [List.getLast?_map, hlast]
      rfl
    · rw [Nat.zero_add, List.length_map]
      exact (hshows j last hj).total.ge.trans hend
  have hsplits (j : Nat) (v : List AuditLog × List AuditLog)
      (hv : (pages.map (LogPage.view env filter))[j]? = some v) :
      ¬Offset.SplitsAt AuditLog.moment v.1 ((0 + j) * limit) entry := by
    rw [List.getElem?_map] at hv
    obtain ⟨p, hp, rfl⟩ := Option.map_eq_some_iff.mp hv
    rw [Nat.zero_add]
    exact hties j p hp
  obtain ⟨j, v, hv, hmem⟩ :=
    Offset.exists_page_of_growing hordered hgrowing hstart hfits hsplits
  rw [List.getElem?_map] at hv
  obtain ⟨p, hp, rfl⟩ := Option.map_eq_some_iff.mp hv
  refine ⟨p, List.mem_of_getElem? hp, ?_⟩
  rw [(hshows j p hp).entries]
  exact hmem

/-! ## Alice blocks Bob while she reads about it -/

/-- A request of Alice's, some microseconds after the example time. -/
def aliceAt (microsecond : Fin 10) (auditId : Uuid) : Request :=
  { exampleVisit "alice" ["admins"] 1 with
    tick := ⟨⟨2025, 1, 1, 0, 0, 0, microsecond.val, by revert microsecond; decide⟩, 1⟩
    auditId := auditId }

def setsBob (microsecond : Fin 10) (auditId : Uuid) (isActive : Bool) : App.Event :=
  .request (aliceAt microsecond auditId) (.user (.blockUser (some (2, isActive))))

def bobBlockedOnce : App :=
  (run (App.step exampleEnv) .start (bobIsBlocked.take 2 ++ [setsBob 1 301 false])).getD .start

/-- An entry comes in before the first page and another one before the second. -/
def turns : List (List App.Event × Request) :=
  [([setsBob 2 302 true], aliceAt 3 303), ([setsBob 4 304 false], aliceAt 5 305),
    ([], aliceAt 6 306)]

def everything : AuditFilter := ⟨none, none⟩

def turned : List LogPage :=
  (bobBlockedOnce.turnPages exampleEnv everything 1 0 turns).getD []

def firstBlock : AuditLog := bobBlockedOnce.db.auditLog.head (by decide +kernel)

theorem turned_ne_nil : turned ≠ [] := List.ne_nil_of_length_pos (by decide +kernel)

theorem first_block_shown :
    firstBlock ∈ bobBlockedOnce.db.auditLog ∧ (∃ p ∈ turned, firstBlock ∈ p.listing.entries) ∧
      turned.map (fun p => p.listing.entries.map AuditLog.id) = [[302], [302], [301]] := by
  have hall : turned.zipIdx.all (fun q => !decide (Offset.SplitsAt AuditLog.moment
      (q.1.rows exampleEnv everything) (q.2 * 1) firstBlock)) = true := by
    decide +kernel
  have hties (k : Nat) (p : LogPage) (hp : turned[k]? = some p) :
      ¬Offset.SplitsAt AuditLog.moment (p.rows exampleEnv everything) (k * 1) firstBlock := by
    simpa using List.all_eq_true.mp hall (p, k) (List.mk_mem_zipIdx_iff_getElem?.mpr hp)
  have hshown := growing_log_missed_nothing exampleEnv everything 1 bobBlockedOnce turns turned
    (turned.getLast turned_ne_nil) rfl (List.getLast?_eq_some_getLast turned_ne_nil)
    (by decide +kernel) firstBlock (List.head_mem _) (by decide +kernel) hties
  exact ⟨List.head_mem _, hshown, by decide +kernel⟩

end IsolatedEnv.Backend
