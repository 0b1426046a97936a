import Mathlib.Data.List.Basic

/-!
# Programs that call a service

A script is a sequence of calls, each chosen from what came back before.  A service
answers every call; a call of an attempt can also be refused, which leaves the service as
it is, and an attempt can be cut off before any call.
-/

namespace IsolatedEnv.Foundation

/-- `result c` is what comes back from the call `c` when it succeeds. -/
inductive Script {γ : Type} (result : γ → Type) (ε α : Type) where
  | done (a : α)
  | call (c : γ) (next : Except ε (result c) → Script result ε α)

namespace Script

variable {γ : Type} {result : γ → Type} {ε α β σ : Type}

def bind (x : Script result ε α) (f : α → Script result ε β) : Script result ε β :=
  match x with
  | done a => f a
  | call c next => call c fun reply => (next reply).bind f

instance instMonad : Monad (Script result ε) where
  pure := done
  bind := bind

def request (c : γ) : Script result ε (Except ε (result c)) := call c done

variable (service : (c : γ) → σ → Except ε (result c) × σ)

/-- A run in which no call is refused. -/
def run : Script result ε α → σ → α × σ
  | done a, s => (a, s)
  | call c next, s => (next (service c s).1).run (service c s).2

/-- One entry for each call that is made, an error for a refusal; then the end. -/
def attempt : Script result ε α → List (Option ε) → σ → σ
  | done _, _, s => s
  | call _ _, [], s => s
  | call c next, none :: rest, s => (next (service c s).1).attempt rest (service c s).2
  | call _ next, some e :: rest, s => (next (.error e)).attempt rest s

variable {service}

theorem run_pure (a : α) (s : σ) : (pure a : Script result ε α).run service s = (a, s) := rfl

theorem run_bind (x : Script result ε α) (f : α → Script result ε β) (s : σ) :
    (x >>= f).run service s = (f (x.run service s).1).run service (x.run service s).2 := by
  induction x generalizing s with
  | done a => rfl
  | call c next ih => exact ih (service c s).1 (service c s).2

theorem run_request (c : γ) (s : σ) :
    (request c : Script result ε _).run service s = service c s := rfl

/-! ## Scripts that make only some calls -/

/-- Whatever comes back, every call satisfies `p`. -/
def Only (p : γ → Prop) : Script result ε α → Prop
  | done _ => True
  | call c next => p c ∧ ∀ reply, (next reply).Only p

variable {p : γ → Prop}

theorem only_pure (a : α) : (pure a : Script result ε α).Only p := trivial

theorem only_request {c : γ} (h : p c) : (request c : Script result ε _).Only p :=
  ⟨h, fun _ => trivial⟩

theorem Only.bind {x : Script result ε α} {f : α → Script result ε β} (hx : x.Only p)
    (hf : ∀ a, (f a).Only p) : (x >>= f).Only p := by
  induction x with
  | done a => exact hf a
  | call c next ih => exact ⟨hx.1, fun reply => ih reply (hx.2 reply)⟩

/-- A call, and then what is done with either answer. -/
theorem Only.request_bind {c : γ} {f : Except ε (result c) → Script result ε β} (hc : p c)
    (herror : ∀ e, (f (.error e)).Only p) (hok : ∀ a, (f (.ok a)).Only p) :
    (request c >>= f).Only p :=
  (only_request hc).bind fun
    | .error e => herror e
    | .ok a => hok a

theorem Only.ite {c : Prop} [Decidable c] {x y : Script result ε α} (hx : x.Only p)
    (hy : y.Only p) : (if c then x else y).Only p := by
  split
  · exact hx
  · exact hy

theorem Only.foldlM {f : β → α → Script result ε β} {l : List α}
    (h : ∀ b, ∀ a ∈ l, (f b a).Only p) (b : β) : (l.foldlM f b).Only p := by
  induction l generalizing b with
  | nil => exact only_pure b
  | cons a l ih =>
      rw [List.foldlM_cons]
      exact (h b a List.mem_cons_self).bind fun b' =>
        ih (fun b a ha => h b a (List.mem_cons_of_mem _ ha)) b'

/-- What every call keeps holds wherever an attempt is cut off. -/
theorem attempt_invariant {inv : σ → Prop}
    (hserve : ∀ c s, p c → inv s → inv (service c s).2) {x : Script result ε α}
    (hx : x.Only p) {s : σ} (hs : inv s) (plan : List (Option ε)) :
    inv (x.attempt service plan s) := by
  induction x generalizing s plan with
  | done a => exact hs
  | call c next ih =>
      cases plan with
      | nil => exact hs
      | cons refusal rest =>
          cases refusal with
          | none => exact ih _ (hx.2 _) (hserve c s hx.1 hs) rest
          | some e => exact ih _ (hx.2 _) hs rest

theorem run_invariant {inv : σ → Prop}
    (hserve : ∀ c s, p c → inv s → inv (service c s).2) {x : Script result ε α}
    (hx : x.Only p) {s : σ} (hs : inv s) : inv (x.run service s).2 := by
  induction x generalizing s with
  | done a => exact hs
  | call c next ih => exact ih _ (hx.2 _) (hserve c s hx.1 hs)

/-! ## What was called and answered -/

/-- A call with what came back from it. -/
abbrev Event (result : γ → Type) (ε : Type) := (c : γ) × Except ε (result c)

/-- `history` lists the calls of a run to the end; the answers may be any. -/
inductive Runs : Script result ε α → List (Event result ε) → α → Prop where
  | done (a : α) : Runs (done a) [] a
  | call {c : γ} {next : Except ε (result c) → Script result ε α}
      {history : List (Event result ε)} {a : α} (reply : Except ε (result c))
      (h : Runs (next reply) history a) : Runs (call c next) (⟨c, reply⟩ :: history) a

/-- A run against a service that answers by all that was called before. -/
def record (answer : List (Event result ε) → (c : γ) → Except ε (result c)) :
    Script result ε α → List (Event result ε) → List (Event result ε) × α
  | done a, seen => (seen, a)
  | call c next, seen =>
      (next (answer seen c)).record answer (seen ++ [⟨c, answer seen c⟩])

section Histories

variable {x : Script result ε α} {history : List (Event result ε)} {a : α}

theorem runs_pure_iff {b : α} :
    (pure a : Script result ε α).Runs history b ↔ history = [] ∧ b = a := by
  constructor
  · intro h
    cases h
    exact ⟨rfl, rfl⟩
  · rintro ⟨rfl, rfl⟩
    exact .done b

theorem runs_request_iff {c : γ} {reply : Except ε (result c)} :
    (request c : Script result ε _).Runs history reply ↔ history = [⟨c, reply⟩] := by
  constructor
  · intro h
    cases h with
    | call reply h =>
        cases h
        rfl
  · rintro rfl
    exact .call reply (.done reply)

theorem runs_bind_iff {f : α → Script result ε β} {b : β} :
    (x >>= f).Runs history b ↔
      ∃ before a after, history = before ++ after ∧ x.Runs before a ∧
        (f a).Runs after b := by
  induction x generalizing history with
  | done a =>
      constructor
      · intro h
        exact ⟨[], a, history, rfl, .done a, h⟩
      · rintro ⟨before, a', after, rfl, hx, hf⟩
        cases hx
        exact hf
  | call c next ih =>
      constructor
      · intro h
        cases h with
        | call reply h =>
            obtain ⟨before, a, after, rfl, hx, hf⟩ := (ih reply).mp h
            exact ⟨_, a, after, rfl, .call reply hx, hf⟩
      · rintro ⟨before, a, after, rfl, hx, hf⟩
        cases hx with
        | call reply hx =>
            exact .call reply ((ih reply).mpr ⟨_, a, after, rfl, hx, hf⟩)

/-- One call, and the rest of the run by its answer. -/
theorem runs_request_bind_iff {c : γ} {f : Except ε (result c) → Script result ε β}
    {b : β} :
    (request c >>= f).Runs history b ↔
      ∃ reply after, history = ⟨c, reply⟩ :: after ∧ (f reply).Runs after b := by
  rw [runs_bind_iff]
  constructor
  · rintro ⟨before, reply, after, rfl, hx, hf⟩
    rw [runs_request_iff] at hx
    subst hx
    exact ⟨reply, after, rfl, hf⟩
  · rintro ⟨reply, after, rfl, hf⟩
    exact ⟨_, reply, after, rfl, runs_request_iff.mpr rfl, hf⟩

theorem record_runs (answer : List (Event result ε) → (c : γ) → Except ε (result c))
    (x : Script result ε α) (seen : List (Event result ε)) :
    ∃ history, (x.record answer seen).1 = seen ++ history ∧
      x.Runs history (x.record answer seen).2 := by
  induction x generalizing seen with
  | done a => exact ⟨[], (List.append_nil seen).symm, .done a⟩
  | call c next ih =>
      obtain ⟨history, hseen, hruns⟩ :=
        ih (answer seen c) (seen ++ [⟨c, answer seen c⟩])
      refine ⟨⟨c, answer seen c⟩ :: history, ?_, .call _ hruns⟩
      rw [record, hseen, List.append_assoc]
      rfl

end Histories

end Script

end IsolatedEnv.Foundation
