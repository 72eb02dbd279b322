import AgentBond.Foundation.Checked

/-! # Transactions statement by statement

A script opens a transaction, sends its statements one after the other and
commits them. The statements work on a copy of the state, which only the commit
makes the state; the database may refuse any of them, and a script that stops
with an error is rolled back. If nothing but the result comes after the commit,
a script takes effect as a whole or not at all.
-/

namespace Foundation

/-- The state of a database, and its copy in the open transaction. -/
structure Session (σ : Type) where
  committed : σ
  working : σ

/-- What a script sends, up to the result it returns. -/
inductive Script (σ ε α : Type) : Type 1
  | done (r : Except ε α)
  | begin (next : Script σ ε α)
  | statement {β : Type} (f : σ → Except ε (β × σ)) (next : β → Script σ ε α)
  | commit (next : Script σ ε α)

namespace Script

variable {σ ε α β : Type}

def bind : Script σ ε α → (α → Script σ ε β) → Script σ ε β
  | done (.ok a), k => k a
  | done (.error e), _ => done (.error e)
  | begin next, k => begin (next.bind k)
  | statement f next, k => statement f fun b => (next b).bind k
  | commit next, k => commit (next.bind k)

instance : Monad (Script σ ε) where
  pure a := done (.ok a)
  bind := bind

/-- A check that sends nothing. -/
def check (r : Except ε α) : Script σ ε α := done r

def start : Script σ ε Unit := begin (done (.ok ()))

/-- A statement that reads. -/
def query (f : σ → α) : Script σ ε α := statement (fun s => .ok (f s, s)) fun a => done (.ok a)

/-- A statement that writes. -/
def exec (f : σ → Except ε σ) : Script σ ε Unit :=
  statement (fun s => (f s).map ((), ·)) fun _ => done (.ok ())

def execAll : List (σ → Except ε σ) → Script σ ε Unit
  | [] => pure ()
  | f :: fs => do
    exec f
    execAll fs

def finish (a : α) : Script σ ε α := commit (done (.ok a))

/-- Run a script on a database that refuses some of what it is sent, by the number of the
statement. -/
def run (refusal : ε) : Script σ ε α → (ℕ → Bool) → Session σ → Except ε α × Session σ
  | done r, _, s => (r, s)
  | begin next, refused, s =>
    if refused 0 then (.error refusal, s)
    else next.run refusal (fun n => refused (n + 1)) { s with working := s.committed }
  | statement f next, refused, s =>
    if refused 0 then (.error refusal, s)
    else
      match f s.working with
      | .error e => (.error e, s)
      | .ok (b, w) => (next b).run refusal (fun n => refused (n + 1)) { s with working := w }
  | commit next, refused, s =>
    if refused 0 then (.error refusal, s)
    else next.run refusal (fun n => refused (n + 1)) { s with committed := s.working }

/-- The reply, and the state that is left. -/
def call (refusal : ε) (x : Script σ ε α) (refused : ℕ → Bool) (d : σ) : Except ε α × σ :=
  ((x.run refusal refused ⟨d, d⟩).1, (x.run refusal refused ⟨d, d⟩).2.committed)

/-- Nothing is committed. -/
def Uncommitted : Script σ ε α → Prop
  | done _ => True
  | begin next => next.Uncommitted
  | statement _ next => ∀ b, (next b).Uncommitted
  | commit _ => False

/-- Nothing but the result comes after a commit. -/
def CommitsLast : Script σ ε α → Prop
  | done _ => True
  | begin next => next.CommitsLast
  | statement _ next => ∀ b, (next b).CommitsLast
  | commit next => ∃ a, next = done (.ok a)

/-- What a script does to a database that refuses nothing. -/
def effect : Script σ ε α → Session σ → Except ε (α × Session σ)
  | done r, s => r.map (·, s)
  | begin next, s => next.effect { s with working := s.committed }
  | statement f next, s => do
    let (b, w) ← f s.working
    (next b).effect { s with working := w }
  | commit next, s => next.effect { s with committed := s.working }

section Rules

variable {refusal : ε} {x : Script σ ε α} {k : α → Script σ ε β} {refused : ℕ → Bool}
  {s s' : Session σ} {d d' : σ}

theorem uncommitted_check (r : Except ε α) : (check r : Script σ ε α).Uncommitted := trivial

theorem uncommitted_start : (start : Script σ ε Unit).Uncommitted := trivial

theorem uncommitted_query (f : σ → α) : (query f : Script σ ε α).Uncommitted := fun _ => trivial

theorem uncommitted_exec (f : σ → Except ε σ) : (exec f).Uncommitted := fun _ => trivial

theorem Uncommitted.bind (hx : x.Uncommitted) (hk : ∀ a, (k a).Uncommitted) :
    (x >>= k).Uncommitted := by
  change (x.bind k).Uncommitted
  induction x with
  | done r =>
    cases r with
    | error e => trivial
    | ok a => exact hk a
  | begin next ih => exact ih hx
  | statement f next ih => exact fun b => ih b (hx b)
  | commit next => exact hx.elim

theorem uncommitted_execAll (fs : List (σ → Except ε σ)) : (execAll fs).Uncommitted := by
  induction fs with
  | nil => trivial
  | cons f fs ih => exact (uncommitted_exec f).bind fun _ => ih

theorem commitsLast_finish (a : α) : (finish a : Script σ ε α).CommitsLast := ⟨a, rfl⟩

theorem CommitsLast.bind (hx : x.Uncommitted) (hk : ∀ a, (k a).CommitsLast) :
    (x >>= k).CommitsLast := by
  change (x.bind k).CommitsLast
  induction x with
  | done r =>
    cases r with
    | error e => trivial
    | ok a => exact hk a
  | begin next ih => exact ih hx
  | statement f next ih => exact fun b => ih b (hx b)
  | commit next => exact hx.elim

/-- A script that stops with an error has committed nothing. -/
theorem committed_of_error {e : ε} (hx : x.CommitsLast)
    (h : x.run refusal refused s = (.error e, s')) : s'.committed = s.committed := by
  induction x generalizing refused s with
  | done r =>
    cases h
    rfl
  | begin next ih =>
    rw [run] at h
    split at h
    · cases h
      rfl
    · have hcommitted := ih hx h
      exact hcommitted
  | statement f next ih =>
    rw [run] at h
    split at h
    · cases h
      rfl
    · split at h
      · cases h
        rfl
      · have hcommitted := ih _ (hx _) h
        exact hcommitted
  | commit next =>
    obtain ⟨a, rfl⟩ := hx
    rw [run] at h
    split at h
    · cases h
      rfl
    · cases h

theorem effect_of_run {a : α} (h : x.run refusal refused s = (.ok a, s')) :
    x.effect s = .ok (a, s') := by
  induction x generalizing refused s with
  | done r =>
    cases h
    rfl
  | begin next ih =>
    rw [run] at h
    split at h
    · cases h
    · exact ih h
  | statement f next ih =>
    rw [run] at h
    split at h
    · cases h
    · split at h
      · cases h
      · rename_i hf
        rw [effect, hf, ok_bind]
        exact ih _ h
  | commit next ih =>
    rw [run] at h
    split at h
    · cases h
    · exact ih h

/-- A call has the effect of the script, or it fails and leaves the state alone. -/
theorem call_cases {r : Except ε α} (hx : x.CommitsLast)
    (h : x.call refusal refused d = (r, d')) :
    (∃ a t, r = .ok a ∧ x.effect ⟨d, d⟩ = .ok (a, t) ∧ t.committed = d') ∨
      (∃ e, r = .error e) ∧ d' = d := by
  rcases hrun : x.run refusal refused ⟨d, d⟩ with ⟨r', t⟩
  rw [call, hrun, Prod.mk.injEq] at h
  obtain ⟨rfl, rfl⟩ := h
  cases r' with
  | ok a => exact .inl ⟨a, t, rfl, effect_of_run hrun, rfl⟩
  | error e => exact .inr ⟨⟨e, rfl⟩, committed_of_error hx hrun⟩

theorem map_bind_except {γ : Type} (x : Except ε α) (f : α → Except ε β) (g : β → γ) :
    (x >>= f).map g = x >>= fun a => (f a).map g := by
  cases x <;> rfl

@[simp] theorem effect_bind (x : Script σ ε α) (k : α → Script σ ε β) (s : Session σ) :
    (x >>= k).effect s = x.effect s >>= fun r => (k r.1).effect r.2 := by
  change (x.bind k).effect s = _
  induction x generalizing s with
  | done r => cases r <;> rfl
  | begin next ih => exact ih _
  | statement f next ih =>
    simp only [bind, effect]
    cases f s.working with
    | error e => rfl
    | ok r => exact ih r.1 _
  | commit next ih => exact ih _

theorem effect_check_bind (r : Except ε α) (s : Session σ) :
    (check r >>= k).effect s = r >>= fun a => (k a).effect s := by
  rw [effect_bind]
  cases r <;> rfl

@[simp] theorem effect_start (s : Session σ) :
    (start : Script σ ε Unit).effect s = .ok ((), { s with working := s.committed }) := rfl

@[simp] theorem effect_query (f : σ → α) (s : Session σ) :
    (query f : Script σ ε α).effect s = .ok (f s.working, s) := rfl

@[simp] theorem effect_exec (f : σ → Except ε σ) (s : Session σ) :
    (exec f).effect s = (f s.working).map fun w => ((), { s with working := w }) := by
  rw [exec, effect]
  cases f s.working <;> rfl

theorem effect_execAll (fs : List (σ → Except ε σ)) (s : Session σ) :
    (execAll fs).effect s =
      (fs.foldlM (fun (w : σ) (f : σ → Except ε σ) => f w) s.working).map fun w =>
        ((), { s with working := w }) := by
  induction fs generalizing s with
  | nil => rfl
  | cons f fs ih =>
    rw [execAll, effect_bind, effect_exec, List.foldlM_cons]
    cases f s.working with
    | error e => rfl
    | ok w => exact ih _

end Rules

end Script

end Foundation
