import IsolatedEnv.Backend.Core.PathLabels
import IsolatedEnv.Backend.Core.RequestId
import IsolatedEnv.Foundation.Run

/-!
# Request metrics

Requests are served at the same time, each in its own call of `RequestIDMiddleware`.  Their
messages and their ends come in any order, and the counters are shared.
-/

namespace IsolatedEnv.Backend

open IsolatedEnv.Foundation

/-! ## Calls of the middleware -/

structure HttpScope extends Scope where
  method : Option String
  path : Option (List Char)

structure HttpMessage extends AsgiMessage where
  status : Option Nat

def HttpMessage.isStart (message : HttpMessage) : Bool := message.type = "http.response.start"

/-- `str(message.get("status", 500))`. -/
def HttpMessage.statusText (message : HttpMessage) : String :=
  toString (message.status.getD 500)

/-- `sent` is what has been passed on; the inner application ends by a return or a raise. -/
structure ServedCall where
  scope : HttpScope
  newId : Uuid
  statusCode : String
  sent : List HttpMessage
  ended : Bool

namespace ServedCall

def start (scope : HttpScope) (newId : Uuid) : ServedCall := ⟨scope, newId, "500", [], false⟩

/-- `send` as the inner application sees it; a scope of another type keeps its own. -/
def send (c : ServedCall) (message : HttpMessage) : ServedCall :=
  match RequestIDMiddleware.call c.scope.toScope c.newId with
  | none => { c with sent := c.sent ++ [message] }
  | some (_, sendWithHeader) =>
      { c with
        statusCode := if message.isStart then message.statusText else c.statusCode
        sent := c.sent ++ ((sendWithHeader message.toAsgiMessage).map fun m =>
          ({ message with toAsgiMessage := m } : HttpMessage)).toList }

def method (c : ServedCall) : String := c.scope.method.getD "UNKNOWN"

def endpoint (c : ServedCall) : List Char := RequestIDMiddleware.endpoint c.scope.path

def isHttp (c : ServedCall) : Bool := c.scope.type = "http"

end ServedCall

/-! ## The process -/

structure RequestLabels where
  method : String
  endpoint : List Char
  status : String
  deriving DecidableEq

def ServedCall.labels (c : ServedCall) : RequestLabels := ⟨c.method, c.endpoint, c.statusCode⟩

/-- `counter.labels(...).inc()`. -/
def inc {κ : Type} [DecidableEq κ] (counter : κ → Nat) (labels : κ) : κ → Nat :=
  Function.update counter labels (counter labels + 1)

theorem inc_apply {κ : Type} [DecidableEq κ] (counter : κ → Nat) (labels other : κ) :
    inc counter labels other = counter other + if labels = other then 1 else 0 := by
  unfold inc
  by_cases h : labels = other
  · rw [h, Function.update_self, if_pos rfl]
  · rw [Function.update_of_ne (Ne.symm h), if_neg h]
    rfl

/-- `requestLatency` is the number of durations observed. -/
structure Registry where
  requestCount : RequestLabels → Nat
  requestLatency : String × List Char → Nat

/-- The `finally` block. -/
def Registry.finish (registry : Registry) (c : ServedCall) : Registry :=
  if c.isHttp then
    { requestCount := inc registry.requestCount c.labels
      requestLatency := inc registry.requestLatency (c.method, c.endpoint) }
  else registry

structure Traffic where
  calls : List ServedCall
  registry : Registry

inductive TrafficEvent where
  | arrive (scope : HttpScope) (newId : Uuid)
  | send (i : Nat) (message : HttpMessage)
  | finish (i : Nat)

namespace Traffic

def start : Traffic := ⟨[], fun _ => 0, fun _ => 0⟩

def running (s : Traffic) (i : Nat) : Option ServedCall :=
  s.calls[i]?.filter fun c => !c.ended

def step (s : Traffic) : TrafficEvent → Option Traffic
  | .arrive scope newId => some { s with calls := s.calls ++ [.start scope newId] }
  | .send i message => (s.running i).map fun c => { s with calls := s.calls.set i (c.send message) }
  | .finish i => (s.running i).map fun c =>
      { calls := s.calls.set i { c with ended := true }
        registry := s.registry.finish c }

/-- An application starts its response at most once. -/
def StartsOnce (s : Traffic) : TrafficEvent → Prop
  | .send i message => message.isStart → ∀ c ∈ s.calls[i]?, ∀ m ∈ c.sent, m.isStart = false
  | _ => True

instance (s : Traffic) : (e : TrafficEvent) → Decidable (s.StartsOnce e)
  | .send _ _ => inferInstanceAs (Decidable (_ → _))
  | .arrive _ _ | .finish _ => isTrue trivial

end Traffic

/-! ## What the client gets -/

namespace ServedCall

/--
What the server writes in the end.  `ServerErrorMiddleware` answers an exception, and the server
a call that only returns, with 500 if no response has been started; what headers these two
give it is left out.
-/
def written (c : ServedCall) : List HttpMessage :=
  if c.sent.any HttpMessage.isStart then c.sent
  else c.sent ++ [⟨⟨"http.response.start", none⟩, some 500⟩]

def clientStatus (c : ServedCall) : Option String :=
  (c.written.find? HttpMessage.isStart).map HttpMessage.statusText

def finishedHttp (c : ServedCall) : Bool := c.isHttp && c.ended

/-- Finished, with the client's status in its labels. -/
def Answered (labels : RequestLabels) (c : ServedCall) : Bool :=
  c.finishedHttp && c.method = labels.method && c.endpoint = labels.endpoint &&
    c.clientStatus = some labels.status

def Timed (timed : String × List Char) (c : ServedCall) : Bool :=
  c.finishedHttp && (c.method, c.endpoint) = timed

/-- The message has the request's own id as its last header. -/
def Carries (c : ServedCall) (m : HttpMessage) : Prop :=
  ∃ value, latin1 value = RequestIDMiddleware.rid c.scope.toScope c.newId ∧
    (m.headers.getD []).getLast? = some (RequestIDMiddleware.headerName, value)

/-- Each start of a response that the application sends has the request's id. -/
def Tagged (c : ServedCall) : Prop := ∀ m ∈ c.sent, m.isStart → c.Carries m

/-- So has each that the client gets, but for the 500 of a call that has started no response. -/
def ClientTagged (c : ServedCall) : Prop :=
  ∀ m ∈ c.written, m.isStart →
    c.Carries m ∨ c.sent.any HttpMessage.isStart = false ∧ m.status = some 500

end ServedCall

/-! ## One call -/

section Calls

variable {c : ServedCall} {message : HttpMessage}

/-- The calls whose `send` the middleware replaces. -/
def ServedCall.Wrapped (c : ServedCall) : Prop := c.scope.type ∈ ["http", "websocket"]

theorem ServedCall.send_wrapped (h : c.Wrapped) (message : HttpMessage) : ∃ m : HttpMessage,
    m.isStart = message.isStart ∧ m.status = message.status ∧
      (message.isStart → c.Carries m) ∧ c.send message = { c with
        statusCode := if message.isStart then message.statusText else c.statusCode
        sent := c.sent ++ [m] } := by
  have hcall : RequestIDMiddleware.call c.scope.toScope c.newId =
      some (RequestIDMiddleware.rid c.scope.toScope c.newId,
        RequestIDMiddleware.sendWithHeader (RequestIDMiddleware.rid c.scope.toScope c.newId)) :=
    if_pos h
  obtain ⟨value, hvalue⟩ : ∃ bytes, latin1 bytes =
      RequestIDMiddleware.rid c.scope.toScope c.newId := RequestIDMiddleware.rid_bytes
  by_cases hstart : message.type = "http.response.start"
  · have hsend : RequestIDMiddleware.sendWithHeader
        (RequestIDMiddleware.rid c.scope.toScope c.newId) message.toAsgiMessage =
          some { message.toAsgiMessage with
            headers := some (message.headers.getD [] ++
              [(RequestIDMiddleware.headerName, value)]) } :=
      RequestIDMiddleware.sendWithHeader_start hvalue hstart
    refine ⟨{ message with headers := some (message.headers.getD [] ++
      [(RequestIDMiddleware.headerName, value)]) }, rfl, rfl, fun _ => ⟨value, hvalue, ?_⟩, ?_⟩
    · simp
    · simp only [ServedCall.send, hcall, hsend]
      rfl
  · have hsend : RequestIDMiddleware.sendWithHeader
        (RequestIDMiddleware.rid c.scope.toScope c.newId) message.toAsgiMessage =
          some message.toAsgiMessage := if_neg hstart
    refine ⟨message, rfl, rfl, fun h => absurd (of_decide_eq_true h) hstart, ?_⟩
    simp only [ServedCall.send, hcall, hsend]
    rfl

theorem ServedCall.wrapped_of_isHttp (h : c.isHttp) : c.Wrapped := by
  have htype : c.scope.type = "http" := of_decide_eq_true h
  rw [ServedCall.Wrapped, htype]
  exact List.mem_cons_self

/-- `status_code` is the status of the start that has been sent, or 500. -/
def ServedCall.StatusKept (c : ServedCall) : Prop :=
  c.statusCode = ((c.sent.find? HttpMessage.isStart).map HttpMessage.statusText).getD "500"

theorem ServedCall.StatusKept.send (h : c.StatusKept) (hwrapped : c.Wrapped)
    (honce : message.isStart → ∀ m ∈ c.sent, m.isStart = false) :
    (c.send message).StatusKept := by
  obtain ⟨m, hstart, hstatus, -, hsend⟩ := ServedCall.send_wrapped hwrapped message
  rw [hsend, ServedCall.StatusKept]
  dsimp only
  rw [List.find?_append]
  by_cases hmessage : message.isStart
  · have hnone : c.sent.find? HttpMessage.isStart = none :=
      List.find?_eq_none.mpr fun m hm => by simp [honce hmessage m hm]
    rw [if_pos hmessage, hnone, Option.none_or, List.find?_singleton, hstart, if_pos hmessage]
    simp [HttpMessage.statusText, hstatus]
  · rw [if_neg hmessage, List.find?_singleton, hstart, if_neg hmessage, Option.or_none]
    exact h

theorem ServedCall.Tagged.send (h : c.Tagged) (hwrapped : c.Wrapped) :
    (c.send message).Tagged := by
  obtain ⟨m, hstart, -, htag, hsend⟩ := ServedCall.send_wrapped hwrapped message
  rw [hsend]
  intro m' hm' hm'start
  rcases List.mem_append.mp hm' with hm' | hm'
  · exact h m' hm' hm'start
  · obtain rfl := List.mem_singleton.mp hm'
    exact htag (hstart ▸ hm'start)

theorem ServedCall.Tagged.client (h : c.Tagged) : c.ClientTagged := by
  intro m hm hstart
  unfold ServedCall.written at hm
  split at hm
  · exact .inl (h m hm hstart)
  · rename_i hnone
    rw [Bool.not_eq_true] at hnone
    rcases List.mem_append.mp hm with hm | hm
    · exact .inl (h m hm hstart)
    · rw [List.mem_singleton.mp hm]
      exact .inr ⟨hnone, rfl⟩

theorem ServedCall.clientStatus_eq (c : ServedCall) : c.clientStatus =
    some (((c.sent.find? HttpMessage.isStart).map HttpMessage.statusText).getD "500") := by
  rw [ServedCall.clientStatus, ServedCall.written]
  split
  · rename_i hany
    obtain ⟨m, hm⟩ := Option.isSome_iff_exists.mp (List.find?_isSome.mpr (List.any_eq_true.mp hany))
    simp [hm]
  · rename_i hnone
    have hfind : c.sent.find? HttpMessage.isStart = none := by
      simpa [List.find?_eq_none] using hnone
    rw [List.find?_append, hfind]
    rfl

theorem ServedCall.StatusKept.clientStatus (h : c.StatusKept) :
    c.clientStatus = some c.statusCode := by
  rw [c.clientStatus_eq, ← h]

/-- The call has ended, and has sent what the application behind the middleware answers. -/
def ServedCall.Follows (site : Site) (request : HttpRequest) (c : ServedCall) : Prop :=
  c.ended = true ∧
    match securityHeadersMiddleware (limitedApp site) request with
    | .ok r => (c.sent.find? HttpMessage.isStart).map HttpMessage.status = some (some r.statusCode)
    | .error _ => c.sent.find? HttpMessage.isStart = none

/-- The client of such a call gets the response to its request. -/
theorem ServedCall.Follows.clientStatus {site : Site} {request : HttpRequest}
    (h : c.Follows site request) :
    c.clientStatus = some (toString (respond site request).statusCode) := by
  obtain ⟨-, hfollows⟩ := h
  rw [c.clientStatus_eq, respond, requestIdMiddleware]
  cases hanswer : securityHeadersMiddleware (limitedApp site) request with
  | error e =>
      rw [hanswer] at hfollows
      rw [show c.sent.find? HttpMessage.isStart = none from hfollows]
      exact congrArg some (show "500" = toString 500 by decide)
  | ok r =>
      rw [hanswer] at hfollows
      obtain ⟨m, hm, hstatus⟩ := Option.map_eq_some_iff.mp hfollows
      rw [hm]
      simp [HttpMessage.statusText, hstatus, Except.map, HttpResponse.addHeaders]

end Calls

/-! ## All calls -/

section Process

variable {s s' : Traffic} {c c' : ServedCall} {i : Nat}

theorem Traffic.running_eq_some :
    s.running i = some c ↔ s.calls[i]? = some c ∧ c.ended = false := by
  simp [Traffic.running, Option.filter_eq_some_iff]

/-- A call that goes on has not been counted. -/
theorem countP_set_running {p : ServedCall → Bool} (hrunning : s.running i = some c)
    (hc : p c = false) :
    (s.calls.set i c').countP p = s.calls.countP p + if p c' then 1 else 0 := by
  obtain ⟨hget, -⟩ := Traffic.running_eq_some.mp hrunning
  obtain ⟨hi, hvalue⟩ := List.getElem?_eq_some_iff.mp hget
  rw [List.countP_set hi, hvalue, hc]
  simp

def ServedCall.Counted (labels : RequestLabels) (c : ServedCall) : Bool :=
  c.finishedHttp && c.labels = labels

/-- What is true at any time. -/
structure Traffic.Accounted (s : Traffic) : Prop where
  count : ∀ labels, s.registry.requestCount labels = s.calls.countP (ServedCall.Counted labels)
  latency : ∀ timed, s.registry.requestLatency timed = s.calls.countP (ServedCall.Timed timed)
  status : ∀ c ∈ s.calls, c.Wrapped → c.StatusKept
  tagged : ∀ c ∈ s.calls, c.Wrapped → c.Tagged

theorem Traffic.accounted_start : Traffic.start.Accounted where
  count _ := rfl
  latency _ := rfl
  status := by simp [Traffic.start]
  tagged := by simp [Traffic.start]

theorem notCounted_of_running {labels : RequestLabels} (h : s.running i = some c) :
    c.Counted labels = false := by
  simp [ServedCall.Counted, ServedCall.finishedHttp, (Traffic.running_eq_some.mp h).2]

theorem notTimed_of_running {timed : String × List Char} (h : s.running i = some c) :
    c.Timed timed = false := by
  simp [ServedCall.Timed, ServedCall.finishedHttp, (Traffic.running_eq_some.mp h).2]

theorem Traffic.Accounted.arrive (h : s.Accounted) (scope : HttpScope) (newId : Uuid) :
    Traffic.Accounted { s with calls := s.calls ++ [.start scope newId] } where
  count labels := by
    have hnew : ServedCall.Counted labels (.start scope newId) = false := by
      simp [ServedCall.Counted, ServedCall.finishedHttp, ServedCall.start]
    simp [List.countP_append, h.count labels, hnew]
  latency timed := by
    have hnew : ServedCall.Timed timed (.start scope newId) = false := by
      simp [ServedCall.Timed, ServedCall.finishedHttp, ServedCall.start]
    simp [List.countP_append, h.latency timed, hnew]
  status c hc hwrapped := by
    rcases List.mem_append.mp hc with hc | hc
    · exact h.status c hc hwrapped
    · rw [List.mem_singleton.mp hc]
      rfl
  tagged c hc hwrapped := by
    rcases List.mem_append.mp hc with hc | hc
    · exact h.tagged c hc hwrapped
    · rw [List.mem_singleton.mp hc]
      exact fun m hm => absurd hm List.not_mem_nil

/-- What a send keeps of the call. -/
theorem ServedCall.send_kept (c : ServedCall) (message : HttpMessage) :
    (c.send message).ended = c.ended ∧ (c.send message).scope = c.scope := by
  unfold ServedCall.send
  split <;> exact ⟨rfl, rfl⟩

theorem Traffic.Accounted.send (h : s.Accounted) {message : HttpMessage}
    (hrunning : s.running i = some c) (honce : s.StartsOnce (.send i message)) :
    Traffic.Accounted { s with calls := s.calls.set i (c.send message) } := by
  obtain ⟨hget, hended⟩ := Traffic.running_eq_some.mp hrunning
  have hmem : c ∈ s.calls := List.mem_of_getElem? hget
  obtain ⟨hkept, hscope⟩ := c.send_kept message
  have hfinished : (c.send message).finishedHttp = false := by
    simp [ServedCall.finishedHttp, hkept, hended]
  have hwrapped (hc : (c.send message).Wrapped) : c.Wrapped := by
    rw [ServedCall.Wrapped, ← hscope]
    exact hc
  constructor
  · intro labels
    dsimp only
    rw [countP_set_running hrunning (notCounted_of_running hrunning), h.count labels]
    simp [ServedCall.Counted, hfinished]
  · intro timed
    dsimp only
    rw [countP_set_running hrunning (notTimed_of_running hrunning), h.latency timed]
    simp [ServedCall.Timed, hfinished]
  · intro c' hc' hc'wrapped
    rcases List.mem_or_eq_of_mem_set hc' with hc' | rfl
    · exact h.status c' hc' hc'wrapped
    · exact (h.status c hmem (hwrapped hc'wrapped)).send (hwrapped hc'wrapped)
        fun hstart => honce hstart c hget
  · intro c' hc' hc'wrapped
    rcases List.mem_or_eq_of_mem_set hc' with hc' | rfl
    · exact h.tagged c' hc' hc'wrapped
    · exact (h.tagged c hmem (hwrapped hc'wrapped)).send (hwrapped hc'wrapped)

theorem Registry.finish_requestCount (registry : Registry) (c : ServedCall)
    (labels : RequestLabels) : (registry.finish c).requestCount labels =
      registry.requestCount labels +
        if ServedCall.Counted labels { c with ended := true } then 1 else 0 := by
  have hcounted : ServedCall.Counted labels { c with ended := true } =
      (c.isHttp && decide (c.labels = labels)) :=
    congrArg (· && decide (c.labels = labels)) (Bool.and_true c.isHttp)
  rw [hcounted]
  unfold Registry.finish
  by_cases hhttp : c.isHttp
  · rw [if_pos hhttp, hhttp, Bool.true_and]
    simp only [decide_eq_true_eq]
    exact inc_apply registry.requestCount c.labels labels
  · simp [hhttp]

theorem Registry.finish_requestLatency (registry : Registry) (c : ServedCall)
    (timed : String × List Char) : (registry.finish c).requestLatency timed =
      registry.requestLatency timed +
        if ServedCall.Timed timed { c with ended := true } then 1 else 0 := by
  have htimed : ServedCall.Timed timed { c with ended := true } =
      (c.isHttp && decide ((c.method, c.endpoint) = timed)) :=
    congrArg (· && decide ((c.method, c.endpoint) = timed)) (Bool.and_true c.isHttp)
  rw [htimed]
  unfold Registry.finish
  by_cases hhttp : c.isHttp
  · rw [if_pos hhttp, hhttp, Bool.true_and]
    simp only [decide_eq_true_eq]
    exact inc_apply registry.requestLatency (c.method, c.endpoint) timed
  · simp [hhttp]

theorem Traffic.Accounted.finish (h : s.Accounted) (hrunning : s.running i = some c) :
    Traffic.Accounted
      ⟨s.calls.set i { c with ended := true }, s.registry.finish c⟩ := by
  obtain ⟨hget, -⟩ := Traffic.running_eq_some.mp hrunning
  have hmem : c ∈ s.calls := List.mem_of_getElem? hget
  constructor
  · intro labels
    rw [Registry.finish_requestCount, h.count labels,
      countP_set_running hrunning (notCounted_of_running hrunning)]
  · intro timed
    rw [Registry.finish_requestLatency, h.latency timed,
      countP_set_running hrunning (notTimed_of_running hrunning)]
  · intro c' hc' hwrapped
    rcases List.mem_or_eq_of_mem_set hc' with hc' | rfl
    · exact h.status c' hc' hwrapped
    · exact h.status c hmem hwrapped
  · intro c' hc' hwrapped
    rcases List.mem_or_eq_of_mem_set hc' with hc' | rfl
    · exact h.tagged c' hc' hwrapped
    · exact h.tagged c hmem hwrapped

theorem Traffic.Accounted.step {e : TrafficEvent} (h : s.Accounted) (honce : s.StartsOnce e)
    (hstep : s.step e = some s') : s'.Accounted := by
  cases e with
  | arrive scope newId =>
      cases hstep
      exact h.arrive scope newId
  | send i message =>
      obtain ⟨c, hrunning, rfl⟩ := Option.map_eq_some_iff.mp hstep
      exact h.send hrunning honce
  | finish i =>
      obtain ⟨c, hrunning, rfl⟩ := Option.map_eq_some_iff.mp hstep
      exact h.finish hrunning

/-- Finished calls are counted under what their clients got. -/
theorem Traffic.Accounted.answered (h : s.Accounted) (labels : RequestLabels) :
    s.calls.countP (ServedCall.Counted labels) = s.calls.countP (ServedCall.Answered labels) := by
  refine List.countP_congr fun c hc => ?_
  have hstatus (hfinished : c.finishedHttp = true) : c.clientStatus = some c.statusCode :=
    (h.status c hc
      (ServedCall.wrapped_of_isHttp (Bool.and_eq_true_iff.mp hfinished).1)).clientStatus
  have hlabels : c.labels = labels ↔ c.method = labels.method ∧ c.endpoint = labels.endpoint ∧
      c.statusCode = labels.status := by
    cases labels
    simp [ServedCall.labels]
  simp only [ServedCall.Counted, ServedCall.Answered, Bool.and_eq_true, decide_eq_true_eq,
    hlabels, and_assoc]
  refine and_congr_right fun hfinished => ?_
  rw [hstatus hfinished, Option.some_inj]

end Process

/--
However the requests overlap, each finished one is counted once, under its method, the label of
its path and the status that its client got, and timed once; and the responses of each request
carry the id of that request, but for the 500 that stands for none.
-/
theorem metrics_account_for_responses (events : List TrafficEvent) (s : Traffic)
    (hrun : run Traffic.step .start events = some s)
    (honce : Along Traffic.step Traffic.StartsOnce .start events) :
    (∀ labels, s.registry.requestCount labels =
        s.calls.countP (ServedCall.Answered labels)) ∧
      (∀ timed, s.registry.requestLatency timed = s.calls.countP (ServedCall.Timed timed)) ∧
      ∀ c ∈ s.calls, c.Wrapped → c.ClientTagged := by
  have haccounted : s.Accounted :=
    run_invariant_along (fun _ _ _ h hguard hstep => h.step hguard hstep)
      Traffic.accounted_start honce hrun
  exact ⟨fun labels => (haccounted.count labels).trans (haccounted.answered labels),
    haccounted.latency, fun c hc hwrapped => (haccounted.tagged c hc hwrapped).client⟩

/-! ## Two requests at a time -/

def getting (id : Uuid) : HttpScope where
  type := "http"
  headers := none
  method := some "GET"
  path := some ("/api/v1/items/".toList ++ id.text)

/-- The second request fails while the first one is answered. -/
def overlapping : List TrafficEvent :=
  [.arrive (getting 7) 1, .arrive (getting 8) 2,
    .send 0 ⟨⟨"http.response.start", none⟩, some 200⟩, .finish 1,
    .send 0 ⟨⟨"http.response.body", none⟩, none⟩, .finish 0]

def overlapped : Traffic := (run Traffic.step .start overlapping).getD .start

theorem overlapping_requests_counted :
    overlapped.registry.requestCount ⟨"GET", "/api/v1/items/\x7bid\x7d".toList, "200"⟩ = 1 ∧
      overlapped.registry.requestCount ⟨"GET", "/api/v1/items/\x7bid\x7d".toList, "500"⟩ = 1 := by
  obtain ⟨hcount, -⟩ :=
    metrics_account_for_responses overlapping overlapped rfl (by decide +kernel)
  rw [hcount, hcount]
  decide +kernel

end IsolatedEnv.Backend
